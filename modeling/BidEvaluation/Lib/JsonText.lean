-- JSON strings in ASCII. A character outside the printable ASCII range is
-- written as its UTF-16 units, each with four hexadecimal digits. No two
-- strings are written alike.
import Mathlib.Data.List.Basic
import Mathlib.Data.Nat.Notation

namespace json_text

/-! ## One character -/

def hexDigit (n : Nat) : Char := Char.ofNat (if n < 10 then 48 + n else 87 + n)

def backslash : Char := Char.ofNat 92

def quotation : Char := Char.ofNat 34

/-- A backslash, the letter u and four digits. -/
def unitText (n : Nat) : List Char :=
  [backslash, 'u', hexDigit (n / 4096 % 16), hexDigit (n / 256 % 16), hexDigit (n / 16 % 16),
    hexDigit (n % 16)]

/-- The letter after the backslash of a short escape. -/
def shortEscape (n : Nat) : Option Char :=
  if n = 34 then some quotation
  else if n = 92 then some backslash
  else if n = 10 then some 'n'
  else if n = 13 then some 'r'
  else if n = 9 then some 't'
  else if n = 12 then some 'f'
  else if n = 8 then some 'b'
  else none

def charText (c : Char) : List Char :=
  match shortEscape c.toNat with
  | some letter => [backslash, letter]
  | none =>
    if 32 ≤ c.toNat ∧ c.toNat < 127 then [c]
    else if c.toNat < 65536 then unitText c.toNat
    else unitText (55296 + (c.toNat - 65536) / 1024) ++ unitText (56320 + (c.toNat - 65536) % 1024)

def stringText (s : String) : String :=
  String.ofList ([quotation] ++ s.toList.flatMap charText ++ [quotation])

/-! ## Reading it back -/

theorem hexDigit_injective {m n : Nat} (hm : m < 16) (hn : n < 16)
    (h : hexDigit m = hexDigit n) : m = n := by
  have hall : ∀ m < 16, ∀ n < 16, hexDigit m = hexDigit n → m = n := by decide
  exact hall m hm n hn h

theorem unitText_injective {m n : Nat} {r r' : List Char} (hm : m < 65536) (hn : n < 65536)
    (h : unitText m ++ r = unitText n ++ r') : m = n ∧ r = r' := by
  unfold unitText at h
  simp only [List.cons_append, List.nil_append, List.cons.injEq, true_and] at h
  obtain ⟨h₁, h₂, h₃, h₄, hr⟩ := h
  have h₁ := hexDigit_injective (Nat.mod_lt _ (by decide)) (Nat.mod_lt _ (by decide)) h₁
  have h₂ := hexDigit_injective (Nat.mod_lt _ (by decide)) (Nat.mod_lt _ (by decide)) h₂
  have h₃ := hexDigit_injective (Nat.mod_lt _ (by decide)) (Nat.mod_lt _ (by decide)) h₃
  have h₄ := hexDigit_injective (Nat.mod_lt _ (by decide)) (Nat.mod_lt _ (by decide)) h₄
  exact ⟨by omega, hr⟩

/-- A character is no surrogate, and no code point is larger. -/
theorem toNat_range (c : Char) : c.toNat < 55296 ∨ 57343 < c.toNat ∧ c.toNat < 1114112 :=
  c.valid

/-- The three kinds of texts of a character. -/
inductive Written (c : Char) : List Char → Prop where
  | short (letter : Char) (h : shortEscape c.toNat = some letter) : Written c [backslash, letter]
  | plain (hne : c ≠ backslash) : Written c [c]
  | units (first : Nat) (rest : List Char) (hfirst : first < 65536)
      (hunits : first = c.toNat ∧ rest = [] ∨
        65536 ≤ c.toNat ∧ first = 55296 + (c.toNat - 65536) / 1024 ∧
          rest = unitText (56320 + (c.toNat - 65536) % 1024)) :
      Written c (unitText first ++ rest)

theorem written (c : Char) : Written c (charText c) := by
  have hrange := toNat_range c
  unfold charText
  split
  · rename_i letter h
    exact .short letter h
  · rename_i h
    split
    · refine .plain ?_
      rintro rfl
      revert h
      decide
    · split
      · rename_i hlt
        have hunits := Written.units c.toNat [] hlt (.inl ⟨rfl, rfl⟩)
        rw [List.append_nil] at hunits
        exact hunits
      · exact .units _ _ (by omega) (.inr ⟨by omega, rfl, rfl⟩)

theorem shortEscape_injective {m n : Nat} {letter : Char} (hm : shortEscape m = some letter)
    (hn : shortEscape n = some letter) : m = n := by
  have hcodes : ∀ k a, shortEscape k = some a → k ∈ [34, 92, 10, 13, 9, 12, 8] := by
    intro k a hk
    by_contra hno
    simp only [List.mem_cons, List.not_mem_nil, or_false, not_or] at hno
    simp [shortEscape, hno] at hk
  have hall : ∀ a ∈ [34, 92, 10, 13, 9, 12, 8], ∀ b ∈ [34, 92, 10, 13, 9, 12, 8],
      shortEscape a = shortEscape b → a = b := by decide
  exact hall m (hcodes m _ hm) n (hcodes n _ hn) (hm.trans hn.symm)

theorem shortEscape_ne_u (n : Nat) : shortEscape n ≠ some 'u' := by
  unfold shortEscape
  repeat' split
  all_goals decide

/-- Two texts that start with units: the units say which characters they are. -/
theorem units_injective {c c' : Char} {first first' : Nat} {rest rest' r r' : List Char}
    (hfirst : first < 65536) (hfirst' : first' < 65536)
    (hunits : first = c.toNat ∧ rest = [] ∨ 65536 ≤ c.toNat ∧
      first = 55296 + (c.toNat - 65536) / 1024 ∧
        rest = unitText (56320 + (c.toNat - 65536) % 1024))
    (hunits' : first' = c'.toNat ∧ rest' = [] ∨ 65536 ≤ c'.toNat ∧
      first' = 55296 + (c'.toNat - 65536) / 1024 ∧
        rest' = unitText (56320 + (c'.toNat - 65536) % 1024))
    (h : unitText first ++ rest ++ r = unitText first' ++ rest' ++ r') : c = c' ∧ r = r' := by
  have hrange := toNat_range c
  have hrange' := toNat_range c'
  rw [List.append_assoc, List.append_assoc] at h
  obtain ⟨heq, hrest⟩ := unitText_injective hfirst hfirst' h
  rcases hunits with ⟨hc, rfl⟩ | ⟨hbig, hc, rfl⟩
  · rcases hunits' with ⟨hc', rfl⟩ | ⟨hbig', hc', rfl⟩
    · exact ⟨Char.toNat_inj.1 (by omega), hrest⟩
    · exfalso
      omega
  · rcases hunits' with ⟨hc', rfl⟩ | ⟨hbig', hc', rfl⟩
    · exfalso
      omega
    · obtain ⟨hlow, hr⟩ := unitText_injective (by omega) (by omega) hrest
      exact ⟨Char.toNat_inj.1 (by omega), hr⟩

/-- No text of a character starts with the text of another one. -/
theorem charText_injective {c c' : Char} {r r' : List Char}
    (h : charText c ++ r = charText c' ++ r') : c = c' ∧ r = r' := by
  have hw := written c
  have hw' := written c'
  generalize charText c = text at h hw
  generalize charText c' = text' at h hw'
  cases hw with
  | short letter hshort =>
    cases hw' with
    | short letter' hshort' =>
      simp only [List.cons_append, List.nil_append, List.cons.injEq, true_and] at h
      obtain ⟨rfl, hr⟩ := h
      exact ⟨Char.toNat_inj.1 (shortEscape_injective hshort hshort'), hr⟩
    | plain hne =>
      simp only [List.cons_append, List.nil_append, List.cons.injEq] at h
      exact absurd h.1.symm hne
    | units first rest hfirst hunits =>
      simp only [unitText, List.cons_append, List.nil_append, List.cons.injEq, true_and] at h
      rw [h.1] at hshort
      exact absurd hshort (shortEscape_ne_u _)
  | plain hne =>
    cases hw' with
    | short letter' hshort' =>
      simp only [List.cons_append, List.nil_append, List.cons.injEq] at h
      exact absurd h.1 hne
    | plain hne' =>
      simp only [List.cons_append, List.nil_append, List.cons.injEq] at h
      exact h
    | units first rest hfirst hunits =>
      simp only [unitText, List.cons_append, List.nil_append, List.cons.injEq] at h
      exact absurd h.1 hne
  | units first rest hfirst hunits =>
    cases hw' with
    | short letter' hshort' =>
      simp only [unitText, List.cons_append, List.nil_append, List.cons.injEq, true_and] at h
      rw [← h.1] at hshort'
      exact absurd hshort' (shortEscape_ne_u _)
    | plain hne' =>
      simp only [unitText, List.cons_append, List.nil_append, List.cons.injEq] at h
      exact absurd h.1.symm hne'
    | units first' rest' hfirst' hunits' =>
      exact units_injective hfirst hfirst' hunits hunits' h

theorem charText_ne_nil (c : Char) : charText c ≠ [] := by
  have hw := written c
  generalize charText c = text at hw
  cases hw <;> simp [unitText]

theorem flatMap_charText_injective {l l' : List Char}
    (h : l.flatMap charText = l'.flatMap charText) : l = l' := by
  induction l generalizing l' with
  | nil =>
    cases l' with
    | nil => rfl
    | cons c' rest' =>
      simp only [List.flatMap_nil, List.flatMap_cons, List.nil_eq, List.append_eq_nil_iff] at h
      exact absurd h.1 (charText_ne_nil c')
  | cons c rest ih =>
    cases l' with
    | nil =>
      simp only [List.flatMap_nil, List.flatMap_cons, List.append_eq_nil_iff] at h
      exact absurd h.1 (charText_ne_nil c)
    | cons c' rest' =>
      simp only [List.flatMap_cons] at h
      obtain ⟨rfl, hrest⟩ := charText_injective h
      rw [ih hrest]

theorem stringText_injective {s s' : String} (h : stringText s = stringText s') : s = s' := by
  unfold stringText at h
  have hlist := String.ofList_injective h
  simp only [List.cons_append, List.nil_append, List.cons.injEq, true_and] at hlist
  have hbody := flatMap_charText_injective (List.append_cancel_right hlist)
  exact String.toList_inj.1 hbody

/-- No text of a character starts with a quotation mark. -/
theorem charText_ne_quotation (c : Char) (rest : List Char) {more : List Char} :
    charText c ++ rest ≠ quotation :: more := by
  have hcodes : c = quotation → shortEscape c.toNat = some quotation := by
    rintro rfl
    rfl
  intro h
  unfold charText at h
  split at h
  · exact absurd (List.cons.inj h).1 (by decide)
  · rename_i hnone
    split at h
    · rw [hcodes (List.cons.inj h).1] at hnone
      cases hnone
    · split at h <;> exact absurd (List.cons.inj h).1 (by decide)

/-- A string ends at its second quotation mark, whatever follows. -/
theorem letters_told {l l' rest rest' : List Char}
    (h : l.flatMap charText ++ quotation :: rest = l'.flatMap charText ++ quotation :: rest') :
    l = l' ∧ rest = rest' := by
  induction l generalizing l' with
  | nil =>
    cases l' with
    | nil => exact ⟨rfl, (List.cons.inj h).2⟩
    | cons c' l' =>
      rw [List.flatMap_cons, List.append_assoc] at h
      exact absurd h.symm (charText_ne_quotation c' _)
  | cons c l ih =>
    cases l' with
    | nil =>
      rw [List.flatMap_cons, List.append_assoc] at h
      exact absurd h (charText_ne_quotation c _)
    | cons c' l' =>
      rw [List.flatMap_cons, List.flatMap_cons, List.append_assoc, List.append_assoc] at h
      obtain ⟨rfl, htail⟩ := charText_injective h
      obtain ⟨rfl, hend⟩ := ih htail
      exact ⟨rfl, hend⟩

theorem stringText_told {s s' : String} {rest rest' : List Char}
    (h : (stringText s).toList ++ rest = (stringText s').toList ++ rest') :
    s = s' ∧ rest = rest' := by
  unfold stringText at h
  rw [String.toList_ofList, String.toList_ofList] at h
  simp only [List.cons_append, List.nil_append, List.append_assoc, List.cons.injEq, true_and] at h
  obtain ⟨hletters, hend⟩ := letters_told h
  exact ⟨String.toList_inj.1 hletters, hend⟩

end json_text
