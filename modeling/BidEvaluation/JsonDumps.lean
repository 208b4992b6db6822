-- The text of `json.dumps` with sorted keys decides the value, up to the order
-- of the keys. So what the service compares or keeps by such a text, it
-- compares or keeps by the value.
import BidEvaluation.Lib.Delimited
import BidEvaluation.Operations
import BidEvaluation.SnapshotLaws
import Mathlib

open delimited json_text bid_evaluation.values bid_evaluation.routes
open bid_evaluation.core (Env)
open bid_evaluation.audit_laws (canon)
open bid_evaluation.snapshot_laws (sorted_keys canon_dict canonItems_eq_map canonEntries_eq_map
  canonEntries_sorted sorted_sorted canon_canon)

namespace bid_evaluation.json_dumps

/-! ## Words -/

/-- What may come after a value. -/
def Stop (c : Char) : Prop := c = ',' ∨ c = ']' ∨ c = '\x7d'

/-- A character of a word: no delimiter, and no start of another value. -/
def Letter (c : Char) : Prop := ¬ Stop c ∧ c ≠ quotation ∧ c ≠ '[' ∧ c ≠ '\x7b'

instance (c : Char) : Decidable (Stop c) := inferInstanceAs (Decidable (_ ∨ _))

instance (c : Char) : Decidable (Letter c) := inferInstanceAs (Decidable (_ ∧ _))

/-- A character of a number. -/
def Figure (c : Char) : Prop := c.isDigit = true ∨ c ∈ ['+', '-', '.', 'e']

instance (c : Char) : Decidable (Figure c) := inferInstanceAs (Decidable (_ ∨ _))

/-- How `repr` writes floats: as numbers, none of them like an integer, no two
of them alike. -/
structure FloatTexts (env : Env) : Prop where
  figures : ∀ x, ∀ c ∈ (env.repr (.float x)).toList, Figure c
  marked : ∀ x, '.' ∈ (env.repr (.float x)).toList ∨ 'e' ∈ (env.repr (.float x)).toList
  apart : ∀ x y, env.repr (.float x) = env.repr (.float y) → x = y

theorem int_injective {m n : Int} (h : toString m = toString n) : m = n := Int.repr_injective h

theorem letter_of_figure {c : Char} (h : Figure c) : Letter c := by
  have hother : ∀ d : Char, ¬ Figure d → c ≠ d := by
    rintro d hd rfl
    exact hd h
  refine ⟨?_, hother _ (by decide), hother _ (by decide), hother _ (by decide)⟩
  rintro (hstop | hstop | hstop)
  · exact hother _ (by decide) hstop
  · exact hother _ (by decide) hstop
  · exact hother _ (by decide) hstop

/-- The text of an integer: digits, and a minus. -/
theorem int_digits (n : Int) : ∀ c ∈ (toString n).toList, c.isDigit = true ∨ c = '-' := by
  have hdigits : ∀ m : Nat, ∀ c ∈ (Nat.repr m).toList, c.isDigit = true := by
    intro m c hc
    unfold Nat.repr at hc
    rw [String.toList_ofList] at hc
    exact Nat.isDigit_of_mem_toDigits (by decide) (by decide) hc
  intro c hc
  cases n with
  | ofNat m => exact .inl (hdigits m c hc)
  | negSucc m =>
    have hminus : toString (Int.negSucc m) = "-" ++ Nat.repr (m + 1) := rfl
    rw [hminus, String.toList_append, List.mem_append] at hc
    rcases hc with hc | hc
    · exact .inr (List.mem_singleton.1 hc)
    · exact .inl (hdigits (m + 1) c hc)

variable {env : Env}

/-- The values whose text is a word. -/
def Word : PyVal → Prop
  | .none | .bool _ | .int _ | .float _ => True
  | .str _ | .list _ | .dict _ => False

/-- A word that is no number. -/
def Named (text : String) : Prop := text ∈ ["null", "true", "false"]

instance (text : String) : Decidable (Named text) := inferInstanceAs (Decidable (_ ∈ _))

theorem named_no_number {text : String} (h : Named text) : ∃ c ∈ text.toList, ¬ Figure c := by
  have hall : ∀ text ∈ ["null", "true", "false"], ∃ c ∈ text.toList, ¬ Figure c := by
    intro text htext
    simp only [List.mem_cons, List.not_mem_nil, or_false] at htext
    obtain rfl | rfl | rfl := htext
    · exact ⟨'n', by decide, by decide⟩
    · exact ⟨'t', by decide, by decide⟩
    · exact ⟨'f', by decide, by decide⟩
  exact hall text h

/-- The four kinds of words. -/
inductive Worded (env : Env) : PyVal → String → Prop where
  | none : Worded env .none "null"
  | bool (b : Bool) : Worded env (.bool b) (if b then "true" else "false")
  | int (n : Int) : Worded env (.int n) (toString n)
  | float (x : Rat) : Worded env (.float x) (env.repr (.float x))

theorem worded {v : PyVal} (h : Word v) : Worded env v (dumps env v) := by
  cases v with
  | none =>
    rw [dumps]
    exact .none
  | bool b =>
    rw [dumps]
    exact .bool b
  | int n =>
    rw [dumps]
    exact .int n
  | float x =>
    rw [dumps]
    exact .float x
  | str s => exact h.elim
  | list items => exact h.elim
  | dict entries => exact h.elim

theorem Named.ne_number {text text' : String} (h : Named text)
    (h' : ∀ c ∈ text'.toList, Figure c) : text ≠ text' := by
  rintro rfl
  obtain ⟨c, hc, hno⟩ := named_no_number h
  exact hno (h' c hc)

theorem int_figures (n : Int) : ∀ c ∈ (toString n).toList, Figure c := by
  intro c hc
  rcases int_digits n c hc with hdigit | rfl
  · exact .inl hdigit
  · exact .inr (by decide)

theorem bool_named (b : Bool) : Named (if b then "true" else "false") := by
  cases b <;> decide

theorem int_ne_float (hf : FloatTexts env) (n : Int) (x : Rat) :
    toString n ≠ env.repr (.float x) := by
  have hunmarked : ∀ c, c ∈ (toString n).toList → c ≠ '.' ∧ c ≠ 'e' := by
    intro c hc
    constructor
    all_goals
      rintro rfl
      rcases int_digits n _ hc with hdigit | hminus
      · exact absurd hdigit (by decide)
      · exact absurd hminus (by decide)
  intro h
  rw [h] at hunmarked
  rcases hf.marked x with hpoint | hletter
  · exact (hunmarked '.' hpoint).1 rfl
  · exact (hunmarked 'e' hletter).2 rfl

/-- Two values with one word are one value. -/
theorem word_unique (hf : FloatTexts env) {v v' : PyVal} {text text' : String}
    (h : Worded env v text) (h' : Worded env v' text') (heq : text = text') : v = v' := by
  have hnull : Named "null" := by decide
  cases h with
  | none =>
    cases h' with
    | none => rfl
    | bool b => cases b <;> exact absurd heq (by decide)
    | int n => exact absurd heq (hnull.ne_number (int_figures n))
    | float x => exact absurd heq (hnull.ne_number (hf.figures x))
  | bool b =>
    cases h' with
    | none => cases b <;> exact absurd heq (by decide)
    | bool b' =>
      have hsame : b = b' := by
        revert heq
        cases b <;> cases b' <;> decide
      rw [hsame]
    | int n => exact absurd heq ((bool_named b).ne_number (int_figures n))
    | float x => exact absurd heq ((bool_named b).ne_number (hf.figures x))
  | int n =>
    cases h' with
    | none => exact absurd heq.symm (hnull.ne_number (int_figures n))
    | bool b => exact absurd heq.symm ((bool_named b).ne_number (int_figures n))
    | int n' => rw [int_injective heq]
    | float x => exact absurd heq (int_ne_float hf n x)
  | float x =>
    cases h' with
    | none => exact absurd heq.symm (hnull.ne_number (hf.figures x))
    | bool b => exact absurd heq.symm ((bool_named b).ne_number (hf.figures x))
    | int n => exact absurd heq.symm (int_ne_float hf n x)
    | float x' => rw [hf.apart x x' heq]

/-- A word has a letter, and only letters. -/
theorem word_letters (hf : FloatTexts env) {v : PyVal} {text : String} (h : Worded env v text) :
    text.toList ≠ [] ∧ ∀ c ∈ text.toList, Letter c := by
  cases h with
  | none => decide
  | bool b => cases b <;> decide
  | int n =>
    refine ⟨fun hnil => ?_, fun c hc => letter_of_figure (int_figures n c hc)⟩
    cases n with
    | ofNat m =>
      have hdigits : Nat.toDigits 10 m = [] := by
        rw [← String.toList_ofList (l := Nat.toDigits 10 m)]
        exact hnil
      exact absurd hdigits Nat.toDigits_ne_nil
    | negSucc m =>
      have hminus : toString (Int.negSucc m) = "-" ++ Nat.repr (m + 1) := rfl
      rw [hminus, String.toList_append] at hnil
      cases hnil
  | float x =>
    refine ⟨fun hnil => ?_, fun c hc => letter_of_figure (hf.figures x c hc)⟩
    have hmarked := hf.marked x
    rw [hnil] at hmarked
    rcases hmarked with hno | hno
    · cases hno
    · cases hno

/-! ## Texts -/

def dumpsText (env : Env) (v : PyVal) : List Char := (dumps env v).toList

def memberChars (env : Env) (e : String × PyVal) : List Char :=
  (stringText e.1).toList ++ ':' :: dumpsText env e.2

theorem sort_map {β γ : Type} (f : β → γ) (entries : List (String × β)) :
    (entries.map (fun e => (e.1, f e.2))).insertionSort (fun a b => a.1 ≤ b.1) =
      (entries.insertionSort (fun a b => a.1 ≤ b.1)).map (fun e => (e.1, f e.2)) := by
  symm
  apply List.map_insertionSort
  exact fun _ _ _ _ => Iff.rfl

theorem dumpsItems_eq (items : List PyVal) : dumpsItems env items = items.map (dumps env) := by
  induction items with
  | nil => rfl
  | cons item rest ih => rw [dumpsItems, ih, List.map_cons]

theorem dumpsMembers_eq (entries : List (String × PyVal)) :
    dumpsMembers env entries = entries.map (fun e => (e.1, dumps env e.2)) := by
  induction entries with
  | nil => rfl
  | cons e rest ih => rw [dumpsMembers, ih, List.map_cons]

theorem toList_commaJoin (texts : List String) :
    (commaJoin texts).toList = joined ',' (texts.map String.toList) := by
  induction texts with
  | nil => rfl
  | cons text rest ih =>
    cases rest with
    | nil => rfl
    | cons next rest =>
      rw [commaJoin, String.toList_append, String.toList_append, ih]
      · rw [List.append_assoc]
        rfl
      · exact List.cons_ne_nil next rest

theorem dumpsText_str (s : String) : dumpsText env (.str s) = (stringText s).toList := by
  rw [dumpsText, dumps]

theorem dumpsText_list (items : List PyVal) :
    dumpsText env (.list items) = '[' :: (joined ',' (items.map (dumpsText env)) ++ [']']) := by
  rw [dumpsText, dumps, String.toList_append, String.toList_append, toList_commaJoin, dumpsItems_eq,
    List.map_map]
  rfl

theorem dumpsText_dict (entries : List (String × PyVal)) :
    dumpsText env (.dict entries) =
      '\x7b' :: (joined ',' ((sorted_keys entries).map (memberChars env)) ++ ['\x7d']) := by
  have hsorted : sort_keys (dumpsMembers env entries) =
      (sorted_keys entries).map (fun e => (e.1, dumps env e.2)) := by
    rw [dumpsMembers_eq, sort_keys, sort_map, sorted_keys]
  have hmember : (String.toList ∘ memberText) ∘ (fun e => (e.1, dumps env e.2)) =
      memberChars env := by
    funext e
    simp [memberText, memberChars, dumpsText]
  rw [dumpsText, dumps, String.toList_append, String.toList_append, toList_commaJoin, hsorted,
    List.map_map, List.map_map, hmember]
  rfl

/-! ## The first character -/

/-- What the first character says about a value. -/
inductive Lead (env : Env) : PyVal → Char → Prop where
  | word {v : PyVal} {c : Char} (h : Worded env v (dumps env v)) (hc : Letter c) : Lead env v c
  | string {c : Char} (s : String) (hc : c = quotation) : Lead env (.str s) c
  | list {c : Char} (items : List PyVal) (hc : c = '[') : Lead env (.list items) c
  | dict {c : Char} (entries : List (String × PyVal)) (hc : c = '\x7b') : Lead env (.dict entries) c

theorem lead_word (hf : FloatTexts env) {v : PyVal} (h : Word v) :
    ∃ c, (dumpsText env v).head? = some c ∧ Lead env v c := by
  obtain ⟨hne, hletters⟩ := word_letters hf (worded h)
  obtain ⟨c, rest, htext⟩ := List.exists_cons_of_ne_nil hne
  refine ⟨c, ?_, .word (worded h) (hletters c ?_)⟩
  · rw [dumpsText, htext]
    rfl
  · rw [htext]
    exact List.mem_cons_self

theorem lead (hf : FloatTexts env) (v : PyVal) :
    ∃ c, (dumpsText env v).head? = some c ∧ Lead env v c := by
  cases v with
  | none => exact lead_word hf trivial
  | bool b => exact lead_word hf trivial
  | int n => exact lead_word hf trivial
  | float x => exact lead_word hf trivial
  | str s =>
    refine ⟨quotation, ?_, .string s rfl⟩
    rw [dumpsText_str, stringText, String.toList_ofList]
    rfl
  | list items =>
    refine ⟨'[', ?_, .list items rfl⟩
    rw [dumpsText_list]
    rfl
  | dict entries =>
    refine ⟨'\x7b', ?_, .dict entries rfl⟩
    rw [dumpsText_dict]
    rfl

theorem Lead.not_stop {v : PyVal} {c : Char} (h : Lead env v c) : ¬ Stop c := by
  cases h with
  | word _ hc => exact hc.1
  | string s hc =>
    rw [hc]
    decide
  | list items hc =>
    rw [hc]
    decide
  | dict entries hc =>
    rw [hc]
    decide

theorem leads_alike (hf : FloatTexts env) {v v' : PyVal} {rest rest' : List Char}
    (h : dumpsText env v ++ rest = dumpsText env v' ++ rest') :
    ∃ c, Lead env v c ∧ Lead env v' c := by
  obtain ⟨c, hc, hlead⟩ := lead hf v
  obtain ⟨c', hc', hlead'⟩ := lead hf v'
  have hheads := congrArg List.head? h
  rw [List.head?_append, List.head?_append, hc, hc', Option.some_or, Option.some_or] at hheads
  obtain rfl := Option.some.inj hheads
  exact ⟨c, hlead, hlead'⟩

/-! ## Values are told -/

/-- The same JSON value: the keys of a dictionary may stand in another order. -/
def Same (v v' : PyVal) : Prop := canon v = canon v'

abbrev ToldValue (env : Env) (v : PyVal) : Prop := Told Stop (dumpsText env) Same v

theorem told_word (hf : FloatTexts env) {v : PyVal} (hv : Word v) : ToldValue env v := by
  intro v' rest rest' hrest hrest' h
  have hw : Worded env v (dumps env v) := worded hv
  obtain ⟨c, hlead, hlead'⟩ := leads_alike hf h
  have hletter : Letter c := by
    cases hlead with
    | word _ hc => exact hc
    | string s hc => exact hv.elim
    | list items hc => exact hv.elim
    | dict entries hc => exact hv.elim
  cases hlead' with
  | word hw' hc =>
    have hstops := (word_letters hf hw).2
    have hstops' := (word_letters hf hw').2
    obtain ⟨htext, hend⟩ := word_told (fun c hc => (hstops c hc).1) (fun c hc => (hstops' c hc).1)
      hrest hrest' h
    have hsame : v = v' := word_unique hf hw hw' (String.toList_inj.1 htext)
    rw [hsame]
    exact ⟨rfl, hend⟩
  | string s hc => exact absurd hc hletter.2.1
  | list items hc => exact absurd hc hletter.2.2.1
  | dict entries hc => exact absurd hc hletter.2.2.2

theorem told_string (hf : FloatTexts env) (s : String) : ToldValue env (.str s) := by
  intro v' rest rest' hrest hrest' h
  obtain ⟨c, hlead, hlead'⟩ := leads_alike hf h
  have hc : c = quotation := by
    cases hlead with
    | word hw hc => cases hw
    | string s hc => exact hc
  cases hlead' with
  | word hw' hletter => exact absurd hc hletter.2.1
  | string s' hc' =>
    rw [dumpsText_str, dumpsText_str] at h
    obtain ⟨rfl, hend⟩ := stringText_told h
    exact ⟨rfl, hend⟩
  | list items' hc' => exact absurd (hc.symm.trans hc') (by decide)
  | dict entries' hc' => exact absurd (hc.symm.trans hc') (by decide)

theorem told_list (hf : FloatTexts env) {items : List PyVal}
    (htold : ∀ item ∈ items, ToldValue env item) : ToldValue env (.list items) := by
  intro v' rest rest' hrest hrest' h
  obtain ⟨c, hlead, hlead'⟩ := leads_alike hf h
  have hc : c = '[' := by
    cases hlead with
    | word hw hc => cases hw
    | list items hc => exact hc
  have hopen : ∀ item, ∃ c, (dumpsText env item).head? = some c ∧ c ≠ ']' := by
    intro item
    obtain ⟨c, hc, hitem⟩ := lead hf item
    refine ⟨c, hc, ?_⟩
    rintro rfl
    exact hitem.not_stop (.inr (.inl rfl))
  cases hlead' with
  | word hw' hletter => exact absurd hc hletter.2.2.1
  | string s' hc' => exact absurd (hc.symm.trans hc') (by decide)
  | list items' hc' =>
    rw [dumpsText_list, dumpsText_list] at h
    simp only [List.cons_append, List.append_assoc, List.nil_append, List.cons.injEq, true_and] at h
    obtain ⟨hsame, hend⟩ := joined_told (.inl rfl) (.inr (.inl rfl)) (by decide) hopen htold h
    refine ⟨?_, hend⟩
    unfold Same
    rw [canon, canon, canonItems_eq_map, canonItems_eq_map]
    exact congrArg PyVal.list (List.forall₂_eq_eq_eq ▸ (List.forall₂_map_left_iff.2
      (List.forall₂_map_right_iff.2 hsame)))
  | dict entries' hc' => exact absurd (hc.symm.trans hc') (by decide)

theorem told_dict (hf : FloatTexts env) {entries : List (String × PyVal)}
    (htold : ∀ e ∈ entries, ToldValue env e.2) : ToldValue env (.dict entries) := by
  intro v' rest rest' hrest hrest' h
  obtain ⟨c, hlead, hlead'⟩ := leads_alike hf h
  have hc : c = '\x7b' := by
    cases hlead with
    | word hw hc => cases hw
    | dict entries hc => exact hc
  have hopen : ∀ e, ∃ c, (memberChars env e).head? = some c ∧ c ≠ '\x7d' := by
    intro e
    refine ⟨quotation, ?_, by decide⟩
    rw [memberChars, stringText, String.toList_ofList]
    rfl
  have hmembers : ∀ e ∈ sorted_keys entries, Told Stop (memberChars env)
      (fun e e' => e.1 = e'.1 ∧ Same e.2 e'.2) e := by
    intro e he
    have hin : e ∈ entries := (List.mem_insertionSort _).1 he
    exact pair_told (fun k k' rest rest' => stringText_told) (htold e hin)
  cases hlead' with
  | word hw' hletter => exact absurd hc hletter.2.2.2
  | string s' hc' => exact absurd (hc.symm.trans hc') (by decide)
  | list items' hc' => exact absurd (hc.symm.trans hc') (by decide)
  | dict entries' hc' =>
    rw [dumpsText_dict, dumpsText_dict] at h
    simp only [List.cons_append, List.append_assoc, List.nil_append, List.cons.injEq, true_and] at h
    obtain ⟨hsame, hend⟩ := joined_told (.inl rfl) (.inr (.inr rfl)) (by decide) hopen hmembers h
    refine ⟨?_, hend⟩
    unfold Same
    rw [canon_dict, canon_dict, ← canonEntries_sorted, ← canonEntries_sorted, canonEntries_eq_map,
      canonEntries_eq_map]
    have hpairs := hsame.imp fun e e' he => (Prod.ext he.1 he.2 :
      ((e.1, canon e.2) : String × PyVal) = (e'.1, canon e'.2))
    exact congrArg PyVal.dict (List.forall₂_eq_eq_eq ▸ (List.forall₂_map_left_iff.2
      (List.forall₂_map_right_iff.2 hpairs)))

mutual

theorem told (hf : FloatTexts env) : ∀ v, ToldValue env v
  | .none => told_word hf trivial
  | .bool _ => told_word hf trivial
  | .int _ => told_word hf trivial
  | .float _ => told_word hf trivial
  | .str s => told_string hf s
  | .list items => told_list hf (items_told hf items)
  | .dict entries => told_dict hf (entries_told hf entries)

theorem items_told (hf : FloatTexts env) : ∀ items : List PyVal, ∀ item ∈ items, ToldValue env item
  | [] => List.forall_mem_nil _
  | item :: rest => List.forall_mem_cons.2 ⟨told hf item, items_told hf rest⟩

theorem entries_told (hf : FloatTexts env) :
    ∀ entries : List (String × PyVal), ∀ e ∈ entries, ToldValue env e.2
  | [] => List.forall_mem_nil _
  | (_, value) :: rest => List.forall_mem_cons.2 ⟨told hf value, entries_told hf rest⟩

end

mutual

/-- The text does not tell the order of the keys. -/
theorem text_canon : ∀ v, dumpsText env (canon v) = dumpsText env v
  | .none => rfl
  | .bool _ => rfl
  | .int _ => rfl
  | .float _ => rfl
  | .str _ => rfl
  | .list items => by
    rw [canon, dumpsText_list, dumpsText_list, canonItems_eq_map, List.map_map, items_canon items]
  | .dict entries => by
    have hmembers : (sorted_keys entries).map (memberChars env ∘ fun e => (e.1, canon e.2)) =
        (sorted_keys entries).map (memberChars env) := by
      apply List.map_congr_left
      intro e he
      have hin : e ∈ entries := (List.mem_insertionSort _).1 he
      rw [Function.comp_apply, memberChars, memberChars, entries_canon entries e hin]
    rw [canon_dict, ← canonEntries_sorted, dumpsText_dict, dumpsText_dict, canonEntries_eq_map,
      sorted_keys, sort_map, ← sorted_keys, sorted_sorted, List.map_map, hmembers]

theorem items_canon : ∀ items : List PyVal,
    items.map (dumpsText env ∘ canon) = items.map (dumpsText env)
  | [] => rfl
  | item :: rest => by
    rw [List.map_cons, List.map_cons, Function.comp_apply, text_canon item, items_canon rest]

theorem entries_canon : ∀ entries : List (String × PyVal), ∀ e ∈ entries,
    dumpsText env (canon e.2) = dumpsText env e.2
  | [] => List.forall_mem_nil _
  | (_, value) :: rest => List.forall_mem_cons.2 ⟨text_canon value, entries_canon rest⟩

end

/-- Two values have one text exactly if they are the same JSON value. -/
theorem dumps_eq_iff (hf : FloatTexts env) {v v' : PyVal} :
    dumps env v = dumps env v' ↔ Same v v' := by
  constructor
  · intro h
    have htext : dumpsText env v ++ [] = dumpsText env v' ++ [] := by rw [dumpsText, dumpsText, h]
    exact (told hf v v' [] [] ends_nil ends_nil htext).1
  · intro h
    have htext : dumpsText env v = dumpsText env v' := by rw [← text_canon v, h, text_canon v']
    exact String.toList_inj.1 htext

/-! ## A text for floats -/

/-- The two parts of a fraction. -/
def fraction_text (x : Rat) : String := toString x.num ++ "e" ++ toString (x.den : Int)

def fraction_env : Env :=
  { operations.calm_env with
    repr := fun v =>
      match v with
      | .float x => fraction_text x
      | _ => "value" }

theorem toList_fraction (x : Rat) :
    (fraction_text x).toList =
      (toString x.num).toList ++ 'e' :: (toString (x.den : Int)).toList := by
  unfold fraction_text
  rw [String.toList_append, String.toList_append, List.append_assoc]
  rfl

theorem fraction_texts : FloatTexts fraction_env where
  figures x c hc := by
    have hin : c ∈ (fraction_text x).toList := hc
    rw [toList_fraction, List.mem_append, List.mem_cons] at hin
    rcases hin with hnum | rfl | hden
    · exact int_figures _ c hnum
    · exact .inr (by decide)
    · exact int_figures _ c hden
  marked x := by
    have hin : 'e' ∈ (fraction_text x).toList := by
      rw [toList_fraction]
      exact List.mem_append_right _ List.mem_cons_self
    exact .inr hin
  apart x y h := by
    have hword : ∀ n : Int, ∀ c ∈ (toString n).toList, ¬ c = 'e' := by
      rintro n c hc rfl
      rcases int_digits n _ hc with hdigit | hminus
      · exact absurd hdigit (by decide)
      · exact absurd hminus (by decide)
    have hends : ∀ rest, Ends (fun c : Char => c = 'e') ('e' :: rest) := ends_cons rfl
    have htext : (fraction_text x).toList = (fraction_text y).toList := congrArg String.toList h
    rw [toList_fraction, toList_fraction] at htext
    obtain ⟨hnum, hrest⟩ := word_told (hword _) (hword _) (hends _) (hends _) htext
    have hden := int_injective (String.toList_inj.1 (List.cons.inj hrest).2)
    exact Rat.ext (int_injective (String.toList_inj.1 hnum)) (Int.ofNat.inj hden)

end bid_evaluation.json_dumps
