-- A dictionary that keeps the order of first insertion, as a Python
-- `dict` does. A write to a key that is present keeps its place; a write
-- to a new key goes to the end. No key is there twice.
import Mathlib.Algebra.GroupWithZero.Nat
import Mathlib.Data.List.Nodup
import Mathlib.Data.List.Lemmas

namespace dict_lib

variable {κ ν : Type} [DecidableEq κ]

/-! ## The entries -/

/-- The value under a key in a list of entries. -/
def lookupEntry : List (κ × ν) → κ → Option ν
  | [], _ => none
  | (a, b) :: rest, k => if a = k then some b else lookupEntry rest k

/-- Replace the value of `k` in place, or put the pair at the end. -/
def setEntry : List (κ × ν) → κ → ν → List (κ × ν)
  | [], k, v => [(k, v)]
  | (a, b) :: rest, k, v => if a = k then (a, v) :: rest else (a, b) :: setEntry rest k v

/-- Drop the entry of `k`. -/
def eraseEntry (l : List (κ × ν)) (k : κ) : List (κ × ν) := l.filter (fun e => e.1 ≠ k)

theorem mem_keys_setEntry (l : List (κ × ν)) (k a : κ) (v : ν) :
    a ∈ (setEntry l k v).map Prod.fst ↔ a = k ∨ a ∈ l.map Prod.fst := by
  induction l with
  | nil => simp [setEntry]
  | cons e rest ih =>
    obtain ⟨b, w⟩ := e
    unfold setEntry
    split
    · rename_i hb
      subst hb
      simp
    · simp only [List.map_cons, List.mem_cons, ih]
      tauto

theorem nodup_setEntry {l : List (κ × ν)} (k : κ) (v : ν) (h : (l.map Prod.fst).Nodup) :
    ((setEntry l k v).map Prod.fst).Nodup := by
  induction l with
  | nil => simp [setEntry]
  | cons e rest ih =>
    obtain ⟨b, w⟩ := e
    simp only [List.map_cons, List.nodup_cons] at h
    unfold setEntry
    split
    · simpa using h
    · rename_i hb
      simp only [List.map_cons, List.nodup_cons, mem_keys_setEntry, not_or]
      exact ⟨⟨hb, h.1⟩, ih h.2⟩

theorem nodup_eraseEntry {l : List (κ × ν)} (k : κ) (h : (l.map Prod.fst).Nodup) :
    ((eraseEntry l k).map Prod.fst).Nodup :=
  h.sublist (List.filter_sublist.map Prod.fst)

theorem lookupEntry_setEntry (l : List (κ × ν)) (k a : κ) (v : ν) :
    lookupEntry (setEntry l k v) a = if a = k then some v else lookupEntry l a := by
  induction l with
  | nil =>
    simp only [setEntry, lookupEntry, eq_comm]
  | cons e rest ih =>
    obtain ⟨b, w⟩ := e
    unfold setEntry
    by_cases hb : b = k
    · subst hb
      by_cases ha : b = a
      · simp [lookupEntry, ha]
      · simp [lookupEntry, ha, Ne.symm ha]
    · by_cases ha : b = a
      · subst ha
        simp [lookupEntry, hb]
      · simp [lookupEntry, hb, ha, ih]

/-- To write or drop an entry shows only under its key. -/
theorem eraseEntry_setEntry (l : List (κ × ν)) (k : κ) (v : ν) :
    eraseEntry (setEntry l k v) k = eraseEntry l k := by
  induction l with
  | nil => simp [setEntry, eraseEntry]
  | cons e rest ih =>
    obtain ⟨b, w⟩ := e
    unfold setEntry
    by_cases hb : b = k
    · simp [hb, eraseEntry]
    · simpa [hb, eraseEntry] using ih

theorem lookupEntry_eraseEntry (l : List (κ × ν)) (k a : κ) :
    lookupEntry (eraseEntry l k) a = if a = k then none else lookupEntry l a := by
  induction l with
  | nil => simp [eraseEntry, lookupEntry]
  | cons e rest ih =>
    obtain ⟨b, w⟩ := e
    unfold eraseEntry at *
    by_cases hb : b = k
    · rw [List.filter_cons_of_neg (by simp [hb]), ih]
      by_cases ha : a = k
      · simp [ha]
      · simp [lookupEntry, ha, hb, Ne.symm ha]
    · rw [List.filter_cons_of_pos (by simp [hb]), lookupEntry, ih, lookupEntry]
      by_cases ha : a = k
      · simp [ha, hb]
      · simp [ha]

theorem lookupEntry_of_mem {l : List (κ × ν)} {k : κ} {v : ν} (h : (l.map Prod.fst).Nodup)
    (hm : (k, v) ∈ l) : lookupEntry l k = some v := by
  induction l with
  | nil => simp at hm
  | cons e rest ih =>
    obtain ⟨b, w⟩ := e
    simp only [List.map_cons, List.nodup_cons] at h
    rcases List.mem_cons.1 hm with heq | hin
    · cases heq
      simp [lookupEntry]
    · have hne : b ≠ k := fun hb => h.1 (hb ▸ List.mem_map_of_mem hin)
      simp [lookupEntry, hne, ih h.2 hin]

theorem mem_of_lookupEntry {l : List (κ × ν)} {k : κ} {v : ν} (h : lookupEntry l k = some v) :
    (k, v) ∈ l := by
  induction l with
  | nil => simp [lookupEntry] at h
  | cons e rest ih =>
    obtain ⟨b, w⟩ := e
    unfold lookupEntry at h
    split at h
    · rename_i hb
      cases h
      simp [hb]
    · exact List.mem_cons_of_mem _ (ih h)

/-- A sum over the values, when one of them is replaced or added. -/
theorem sum_setEntry (f : ν → Nat) (l : List (κ × ν)) (k : κ) (v : ν) :
    ((setEntry l k v).map (fun e => f e.2)).sum + ((lookupEntry l k).map f).getD 0 =
      (l.map (fun e => f e.2)).sum + f v := by
  induction l with
  | nil => simp [setEntry, lookupEntry]
  | cons e rest ih =>
    obtain ⟨b, w⟩ := e
    unfold setEntry lookupEntry
    by_cases hb : b = k
    · simp only [hb, if_true, List.map_cons, List.sum_cons, Option.map_some, Option.getD_some]
      omega
    · simp only [hb, if_false, List.map_cons, List.sum_cons]
      omega

/-- The first entry whose value satisfies a predicate stays the first, when an
entry is replaced by one on which the predicate agrees, or a new one is added. -/
theorem find?_setEntry {p : ν → Bool} {l : List (κ × ν)} {k a : κ} {v b : ν}
    (hkeys : (l.map Prod.fst).Nodup) (hold : ∀ old, lookupEntry l k = some old → p v = p old)
    (h : l.find? (fun e => p e.2) = some (a, b)) :
    (setEntry l k v).find? (fun e => p e.2) = some (a, if a = k then v else b) := by
  induction l with
  | nil => simp at h
  | cons e rest ih =>
    obtain ⟨c, w⟩ := e
    simp only [List.map_cons, List.nodup_cons] at hkeys
    unfold setEntry
    by_cases hc : c = k
    · have hpw : p v = p w := hold w (by simp [lookupEntry, hc])
      rw [if_pos hc]
      rcases hp : p w
      · have hrest : rest.find? (fun e => p e.2) = some (a, b) := by
          rw [List.find?_cons_of_neg (by simp [hp])] at h
          exact h
        have hne : a ≠ k := by
          rintro rfl
          exact hkeys.1 (hc ▸ List.mem_map_of_mem (List.mem_of_find?_eq_some hrest))
        rw [List.find?_cons_of_neg (by simp [hpw, hp]), hrest, if_neg hne]
      · rw [List.find?_cons_of_pos (by simp [hp])] at h
        cases h
        rw [List.find?_cons_of_pos (by simp [hpw, hp]), if_pos hc]
    · have hlookup : ∀ old, lookupEntry rest k = some old → p v = p old := fun old hlater =>
        hold old (by simp [lookupEntry, hc, hlater])
      rw [if_neg hc]
      rcases hp : p w
      · rw [List.find?_cons_of_neg (by simp [hp])] at h
        rw [List.find?_cons_of_neg (by simp [hp])]
        exact ih hkeys.2 hlookup h
      · rw [List.find?_cons_of_pos (by simp [hp])] at h
        cases h
        rw [List.find?_cons_of_pos (by simp [hp]), if_neg hc]

/-! ## The dictionary -/

structure Dict (κ ν : Type) where
  entries : List (κ × ν)
  keys_nodup : (entries.map Prod.fst).Nodup

namespace Dict

def empty : Dict κ ν := ⟨[], by simp⟩

instance : Inhabited (Dict κ ν) := ⟨empty⟩

def get? (d : Dict κ ν) (k : κ) : Option ν := lookupEntry d.entries k

def set (d : Dict κ ν) (k : κ) (v : ν) : Dict κ ν :=
  ⟨setEntry d.entries k v, nodup_setEntry k v d.keys_nodup⟩

def erase (d : Dict κ ν) (k : κ) : Dict κ ν :=
  ⟨eraseEntry d.entries k, nodup_eraseEntry k d.keys_nodup⟩

def values (d : Dict κ ν) : List ν := d.entries.map Prod.snd

def keys (d : Dict κ ν) : List κ := d.entries.map Prod.fst

@[simp] theorem get?_empty (k : κ) : (empty : Dict κ ν).get? k = none := rfl

theorem get?_set (d : Dict κ ν) (k a : κ) (v : ν) :
    (d.set k v).get? a = if a = k then some v else d.get? a :=
  lookupEntry_setEntry d.entries k a v

@[simp] theorem get?_set_self (d : Dict κ ν) (k : κ) (v : ν) : (d.set k v).get? k = some v := by
  simp [get?_set]

theorem get?_set_of_ne (d : Dict κ ν) {k a : κ} (v : ν) (h : a ≠ k) :
    (d.set k v).get? a = d.get? a := by
  simp [get?_set, h]

theorem get?_erase (d : Dict κ ν) (k a : κ) :
    (d.erase k).get? a = if a = k then none else d.get? a :=
  lookupEntry_eraseEntry d.entries k a

theorem mem_entries_iff (d : Dict κ ν) (k : κ) (v : ν) :
    (k, v) ∈ d.entries ↔ d.get? k = some v :=
  ⟨lookupEntry_of_mem d.keys_nodup, mem_of_lookupEntry⟩

theorem mem_values_iff (d : Dict κ ν) (v : ν) : v ∈ d.values ↔ ∃ k, d.get? k = some v := by
  simp only [values, List.mem_map, Prod.exists, exists_eq_right, mem_entries_iff]

theorem sum_values_set (f : ν → Nat) (d : Dict κ ν) (k : κ) (v : ν) :
    ((d.set k v).values.map f).sum + ((d.get? k).map f).getD 0 = (d.values.map f).sum + f v := by
  have h := sum_setEntry f d.entries k v
  simpa [values, set, get?, Function.comp_def] using h

end Dict

/-! ## A table of records

A dictionary of records that is keyed by a field of the record. -/

structure Table {κ ν : Type} [DecidableEq κ] (key : ν → κ) where
  dict : Dict κ ν
  keyed : ∀ k v, dict.get? k = some v → key v = k

namespace Table

variable {key : ν → κ}

def empty : Table key := ⟨Dict.empty, by simp⟩

instance : Inhabited (Table key) := ⟨empty⟩

def get? (t : Table key) (k : κ) : Option ν := t.dict.get? k

/-- Store a record under its own key. -/
def put (t : Table key) (v : ν) : Table key where
  dict := t.dict.set (key v) v
  keyed := by
    intro k w hw
    rw [Dict.get?_set] at hw
    split at hw
    · rename_i hk
      cases hw
      exact hk.symm
    · exact t.keyed k w hw

def values (t : Table key) : List ν := t.dict.values

@[simp] theorem get?_empty (k : κ) : (empty : Table key).get? k = none := rfl

theorem get?_put (t : Table key) (v : ν) (k : κ) :
    (t.put v).get? k = if k = key v then some v else t.get? k :=
  Dict.get?_set t.dict (key v) k v

@[simp] theorem get?_put_self (t : Table key) (v : ν) : (t.put v).get? (key v) = some v := by
  simp [get?_put]

theorem key_of_get? (t : Table key) {k : κ} {v : ν} (h : t.get? k = some v) : key v = k :=
  t.keyed k v h

theorem mem_values_iff (t : Table key) (v : ν) : v ∈ t.values ↔ t.get? (key v) = some v := by
  unfold values get?
  rw [Dict.mem_values_iff]
  constructor
  · rintro ⟨k, hk⟩
    rwa [t.keyed k v hk]
  · intro h
    exact ⟨key v, h⟩

/-- The first record that satisfies a predicate keeps its place. -/
theorem find?_put {t : Table key} {p : ν → Bool} {v a : ν}
    (hold : ∀ old, t.get? (key v) = some old → p v = p old) (h : t.values.find? p = some a) :
    (t.put v).values.find? p = some (if key a = key v then v else a) := by
  unfold values Dict.values at h ⊢
  rw [List.find?_map] at h ⊢
  obtain ⟨⟨k, b⟩, hfound, rfl⟩ := Option.map_eq_some_iff.1 h
  have hkey : key b = k :=
    t.keyed k b ((t.dict.mem_entries_iff k b).1 (List.mem_of_find?_eq_some hfound))
  have hset : (t.put v).dict.entries.find? (p ∘ Prod.snd) =
      some (k, if k = key v then v else b) :=
    find?_setEntry t.dict.keys_nodup hold hfound
  rw [hset, Option.map_some, hkey]

theorem keys_nodup (t : Table key) : (t.values.map key).Nodup := by
  have hkeys : t.values.map key = t.dict.entries.map Prod.fst := by
    unfold values Dict.values
    rw [List.map_map]
    apply List.map_congr_left
    intro e he
    exact t.keyed e.1 e.2 ((t.dict.mem_entries_iff e.1 e.2).1 he)
  rw [hkeys]
  exact t.dict.keys_nodup

end Table

end dict_lib
