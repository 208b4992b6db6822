-- A table that many owners share. An owner reads its own rows, in the order
-- of the table, and writes a row under its key. What the others write shows
-- only in the rows that they overwrite, and in the place that a row gets.
import BidEvaluation.Lib.Dict

namespace dict_lib

variable {κ ν τ : Type} [DecidableEq κ] [DecidableEq τ] {key : ν → κ}

/-! ## The place of a key -/

/-- Where a key stands or would stand in a list of entries. -/
theorem entries_split (l : List (κ × ν)) (k : κ) (h : (l.map Prod.fst).Nodup) :
    ∃ before after, l = before ++ ((lookupEntry l k).map (fun v => (k, v))).toList ++ after ∧
      (∀ e ∈ before, e.1 ≠ k) ∧ (∀ e ∈ after, e.1 ≠ k) ∧ (lookupEntry l k = none → after = []) ∧
      (∀ v, setEntry l k v = before ++ (k, v) :: after) ∧ eraseEntry l k = before ++ after := by
  induction l with
  | nil => exact ⟨[], [], by simp [setEntry, eraseEntry, lookupEntry]⟩
  | cons e rest ih =>
    obtain ⟨b, w⟩ := e
    rw [List.map_cons, List.nodup_cons] at h
    by_cases hb : b = k
    · subst hb
      have hne : ∀ e ∈ rest, e.1 ≠ b := by
        rintro e he rfl
        exact h.1 (List.mem_map.2 ⟨e, he, rfl⟩)
      have herase : rest.filter (fun e => e.1 ≠ b) = rest := by
        rw [List.filter_eq_self]
        intro e he
        simpa using hne e he
      have hlookup : lookupEntry ((b, w) :: rest) b = some w := by simp [lookupEntry]
      refine ⟨[], rest, by simp [hlookup], by simp, hne, by simp [hlookup], ?_, ?_⟩
      · intro v
        simp [setEntry]
      · rw [eraseEntry, List.filter_cons_of_neg (by simp)]
        exact herase
    · obtain ⟨before, after, hsplit, hbefore, hafter, hlast, hset, herase⟩ := ih h.2
      have hlookup : lookupEntry ((b, w) :: rest) k = lookupEntry rest k := by
        rw [lookupEntry, if_neg hb]
      rw [hlookup]
      refine ⟨(b, w) :: before, after, ?_, ?_, hafter, hlast, ?_, ?_⟩
      · exact congrArg ((b, w) :: ·) hsplit
      · intro e he
        rcases List.mem_cons.1 he with rfl | he
        · exact hb
        · exact hbefore e he
      · intro v
        rw [setEntry, if_neg hb, hset]
        rfl
      · rw [eraseEntry, List.filter_cons_of_pos (by simp [hb])]
        exact congrArg ((b, w) :: ·) herase

/-- A set of the value that is there changes nothing. -/
theorem Dict.set_same (d : Dict κ ν) {k : κ} {v : ν} (h : d.get? k = some v) : d.set k v = d := by
  obtain ⟨before, after, hsplit, -, -, -, hset, -⟩ := entries_split d.entries k d.keys_nodup
  have hentries : setEntry d.entries k v = d.entries := by
    have hlookup : lookupEntry d.entries k = some v := h
    rw [hset, hsplit, hlookup]
    simp
  obtain ⟨entries, hnodup⟩ := d
  unfold Dict.set
  congr

namespace Table

def erase (t : Table key) (k : κ) : Table key where
  dict := t.dict.erase k
  keyed := by
    intro a v hv
    change lookupEntry (eraseEntry t.dict.entries k) a = some v at hv
    rw [lookupEntry_eraseEntry] at hv
    split at hv
    · cases hv
    · exact t.keyed a v hv

/-- Read each row through a function that keeps its key. -/
def map {μ : Type} {key' : μ → κ} (t : Table key) (f : ν → μ) (hf : ∀ v, key' (f v) = key v) :
    Table key' where
  dict :=
    { entries := t.dict.entries.map (fun e => (e.1, f e.2))
      keys_nodup := by
        rw [List.map_map]
        exact t.dict.keys_nodup }
  keyed := by
    intro k w hw
    obtain ⟨⟨a, v⟩, hin, heq⟩ := List.mem_map.1 (mem_of_lookupEntry hw)
    cases heq
    rw [hf]
    exact t.keyed a v ((t.dict.mem_entries_iff a v).1 hin)

theorem get?_map {μ : Type} {key' : μ → κ} (t : Table key) (f : ν → μ)
    (hf : ∀ v, key' (f v) = key v) (k : κ) : (t.map f hf).get? k = (t.get? k).map f := by
  unfold get? Dict.get? map
  dsimp only
  induction t.dict.entries with
  | nil => rfl
  | cons e rest ih =>
    rw [List.map_cons, lookupEntry, lookupEntry, ih]
    split <;> rfl

theorem get?_erase (t : Table key) (k a : κ) :
    (t.erase k).get? a = if a = k then none else t.get? a :=
  lookupEntry_eraseEntry t.dict.entries k a

/-- A put changes nothing exactly when the row is there already. -/
theorem put_eq_self_iff (t : Table key) (v : ν) : t.put v = t ↔ t.get? (key v) = some v := by
  constructor
  · intro heq
    have hput := t.get?_put_self v
    rwa [heq] at hput
  · intro hget
    have hset : t.dict.set (key v) v = t.dict := t.dict.set_same hget
    obtain ⟨dict, hkeyed⟩ := t
    unfold put
    congr

/-- The same for the rows of a table. -/
theorem values_split (t : Table key) (k : κ) :
    ∃ before after, t.values = before ++ (t.get? k).toList ++ after ∧
      (∀ v ∈ before, key v ≠ k) ∧ (∀ v ∈ after, key v ≠ k) ∧ (t.get? k = none → after = []) ∧
      (∀ v, key v = k → (t.put v).values = before ++ v :: after) ∧
      (t.erase k).values = before ++ after := by
  obtain ⟨before, after, hsplit, hbefore, hafter, hlast, hset, herase⟩ :=
    entries_split t.dict.entries k t.dict.keys_nodup
  have hrows : ∀ l : List (κ × ν), (∀ e ∈ l, e ∈ t.dict.entries) → (∀ e ∈ l, e.1 ≠ k) →
      ∀ v ∈ l.map Prod.snd, key v ≠ k := by
    intro l hl hne v hv
    obtain ⟨e, he, rfl⟩ := List.mem_map.1 hv
    rw [t.keyed e.1 e.2 ((t.dict.mem_entries_iff e.1 e.2).1 (hl e he))]
    exact hne e he
  refine ⟨before.map Prod.snd, after.map Prod.snd, ?_, ?_, ?_, ?_, ?_, ?_⟩
  · have hvalues := congrArg (List.map Prod.snd) hsplit
    rw [List.map_append, List.map_append] at hvalues
    unfold values Dict.values get? Dict.get?
    rw [hvalues]
    cases lookupEntry t.dict.entries k <;> rfl
  · exact hrows before (fun e he => by rw [hsplit]; simp [he]) hbefore
  · exact hrows after (fun e he => by rw [hsplit]; simp [he]) hafter
  · intro hnone
    rw [hlast hnone]
    rfl
  · rintro v rfl
    unfold values Dict.values put Dict.set
    dsimp only
    rw [hset, List.map_append, List.map_cons]
  · unfold values Dict.values erase Dict.erase
    dsimp only
    rw [herase, List.map_append]

/-! ## What an owner reads -/

variable (owner : ν → τ)

def owned (t : Table key) (a : τ) : List ν := t.values.filter (fun v => owner v = a)

def getOwned (t : Table key) (a : τ) (k : κ) : Option ν :=
  (t.get? k).filter (fun v => owner v = a)

/-- The owner's rows that stand before the place of a key. -/
def placeOf (t : Table key) (a : τ) (k : κ) : List ν :=
  (t.values.takeWhile (fun v => key v ≠ k)).filter (fun v => owner v = a)

/-- The owner's rows around the place of a key. -/
theorem owned_split (t : Table key) (a : τ) (k : κ) :
    ∃ after, owned owner t a = placeOf owner t a k ++ (getOwned owner t a k).toList ++ after ∧
      (∀ v ∈ placeOf owner t a k, key v ≠ k) ∧ (∀ v ∈ after, key v ≠ k) ∧
      (t.get? k = none → after = []) ∧
      (∀ v, key v = k → owned owner (t.put v) a =
        placeOf owner t a k ++ (if owner v = a then [v] else []) ++ after) ∧
      owned owner (t.erase k) a = placeOf owner t a k ++ after := by
  obtain ⟨before, after, hvalues, hbefore, hafter, hlast, hput, herase⟩ := t.values_split k
  have hplace : placeOf owner t a k = before.filter (fun v => owner v = a) := by
    unfold placeOf
    rw [hvalues, List.append_assoc, List.takeWhile_append_of_pos (by simpa using hbefore)]
    rcases hget : t.get? k with _ | v
    · rw [hlast hget]
      simp
    · simp [t.key_of_get? hget]
  refine ⟨after.filter (fun v => owner v = a), ?_, ?_, ?_, ?_, ?_, ?_⟩
  · unfold owned getOwned
    rw [hplace, hvalues, List.filter_append, List.filter_append]
    rcases t.get? k with _ | v
    · rfl
    · by_cases hv : owner v = a
      · simp [Option.filter, hv]
      · simp [Option.filter, hv]
  · rw [hplace]
    exact fun v hv => hbefore v (List.mem_filter.1 hv).1
  · exact fun v hv => hafter v (List.mem_filter.1 hv).1
  · intro hnone
    rw [hlast hnone]
    rfl
  · intro v hv
    unfold owned
    rw [hplace, hput v hv, List.filter_append]
    by_cases howner : owner v = a
    · simp [howner]
    · simp [howner]
  · unfold owned
    rw [hplace, herase, List.filter_append]

variable {owner}

/-- Drop the row under a key. -/
def dropRow (key : ν → κ) (k : κ) (rows : List ν) : List ν := rows.filter (fun v => key v ≠ k)

theorem dropRow_append (k : κ) (l l' : List ν) :
    dropRow key k (l ++ l') = dropRow key k l ++ dropRow key k l' := List.filter_append ..

theorem dropRow_eq_self {k : κ} {rows : List ν} (h : ∀ v ∈ rows, key v ≠ k) :
    dropRow key k rows = rows := by
  unfold dropRow
  rw [List.filter_eq_self]
  intro v hv
  simpa using h v hv

theorem dropRow_eq_nil {k : κ} {rows : List ν} (h : ∀ v ∈ rows, key v = k) :
    dropRow key k rows = [] := by
  unfold dropRow
  rw [List.filter_eq_nil_iff]
  intro v hv
  simpa using h v hv

theorem key_of_getOwned {t : Table key} {a : τ} {k : κ} {v : ν}
    (h : getOwned owner t a k = some v) : key v = k ∧ owner v = a := by
  unfold getOwned at h
  rw [Option.filter_eq_some_iff] at h
  exact ⟨t.key_of_get? h.1, by simpa using h.2⟩

/-- What the owner has under other keys. -/
theorem dropRow_owned {t : Table key} {a : τ} {k : κ} {after : List ν}
    (hsplit : owned owner t a = placeOf owner t a k ++ (getOwned owner t a k).toList ++ after)
    (hbefore : ∀ v ∈ placeOf owner t a k, key v ≠ k) (hafter : ∀ v ∈ after, key v ≠ k) :
    dropRow key k (owned owner t a) = placeOf owner t a k ++ after := by
  have hhere : ∀ v ∈ (getOwned owner t a k).toList, key v = k := by
    intro v hv
    exact (key_of_getOwned (Option.mem_toList.1 hv)).1
  rw [hsplit, dropRow_append, dropRow_append, dropRow_eq_self hbefore, dropRow_eq_nil hhere,
    dropRow_eq_self hafter, List.append_nil]

theorem getOwned_eq_find (t : Table key) (a : τ) (k : κ) :
    getOwned owner t a k = (owned owner t a).find? (fun v => key v = k) := by
  obtain ⟨after, hsplit, hbefore, hafter, -⟩ := owned_split owner t a k
  have hnone : ∀ rows : List ν, (∀ v ∈ rows, key v ≠ k) →
      rows.find? (fun v => key v = k) = none := by
    intro rows hrows
    rw [List.find?_eq_none]
    intro v hv
    simpa using hrows v hv
  rw [hsplit, List.find?_append, List.find?_append, hnone _ hbefore, hnone _ hafter]
  rcases hget : getOwned owner t a k with _ | v
  · rfl
  · simp [(key_of_getOwned hget).1]

theorem owned_erase (t : Table key) (a : τ) (k : κ) :
    owned owner (t.erase k) a = dropRow key k (owned owner t a) := by
  obtain ⟨after, hsplit, hbefore, hafter, -, -, herase⟩ := owned_split owner t a k
  rw [herase, dropRow_owned hsplit hbefore hafter]

/-- What another owner writes overwrites a row, if anything. -/
theorem owned_put_other (t : Table key) {a : τ} {v : ν} (hv : owner v ≠ a) :
    owned owner (t.put v) a = dropRow key (key v) (owned owner t a) := by
  obtain ⟨after, hsplit, hbefore, hafter, -, hput, -⟩ :=
    owned_split owner t a (key v)
  rw [hput v rfl, if_neg hv, List.append_nil, dropRow_owned hsplit hbefore hafter]

theorem owned_put (t : Table key) {a : τ} {v : ν} (hv : owner v = a) :
    owned owner (t.put v) a = placeOf owner t a (key v) ++
      v :: (dropRow key (key v) (owned owner t a)).drop (placeOf owner t a (key v)).length := by
  obtain ⟨after, hsplit, hbefore, hafter, -, hput, -⟩ :=
    owned_split owner t a (key v)
  rw [hput v rfl, if_pos hv, dropRow_owned hsplit hbefore hafter, List.drop_left' rfl,
    List.append_assoc, List.singleton_append]

/-- A key that is not in the table has its place at the end. -/
theorem placeOf_of_fresh {t : Table key} {a : τ} {k : κ} (h : t.get? k = none) :
    placeOf owner t a k = owned owner t a := by
  obtain ⟨after, hsplit, -, -, hlast, -⟩ := owned_split owner t a k
  have hget : getOwned owner t a k = none := by
    unfold getOwned
    rw [h]
    rfl
  rw [hsplit, hlast h, hget]
  simp

/-- The place of a row that the owner has. -/
theorem placeOf_of_getOwned {t : Table key} {a : τ} {k : κ} {v : ν}
    (h : getOwned owner t a k = some v) :
    placeOf owner t a k = (owned owner t a).takeWhile (fun v => key v ≠ k) := by
  obtain ⟨after, hsplit, hbefore, -⟩ := owned_split owner t a k
  rw [hsplit, h, List.append_assoc, List.takeWhile_append_of_pos (by simpa using hbefore)]
  simp [(key_of_getOwned h).1]

theorem takeWhile_owned_put (t : Table key) {a : τ} {v : ν} (hv : owner v = a) :
    (owned owner (t.put v) a).takeWhile (fun w => key w ≠ key v) = placeOf owner t a (key v) := by
  obtain ⟨after, -, hbefore, -⟩ := owned_split owner t a (key v)
  rw [owned_put t hv, List.takeWhile_append_of_pos (by simpa using hbefore)]
  simp

/-- Two tables that an owner reads alike stay alike to it after its write
exactly when the row gets the same place. -/
theorem owned_put_eq_iff {t t' : Table key} {a : τ} {v : ν} (hv : owner v = a)
    (h : owned owner t a = owned owner t' a) :
    owned owner (t.put v) a = owned owner (t'.put v) a ↔
      placeOf owner t a (key v) = placeOf owner t' a (key v) := by
  constructor
  · intro heq
    rw [← takeWhile_owned_put t hv, heq, takeWhile_owned_put t' hv]
  · intro heq
    rw [owned_put t hv, owned_put t' hv, h, heq]

theorem dropRow_eq_self_iff {k : κ} {rows : List ν} :
    dropRow key k rows = rows ↔ rows.find? (fun v => key v = k) = none := by
  unfold dropRow
  rw [List.filter_eq_self, List.find?_eq_none]
  simp

theorem mem_owned_iff {t : Table key} {a : τ} {v : ν} :
    v ∈ owned owner t a ↔ t.get? (key v) = some v ∧ owner v = a := by
  unfold owned
  rw [List.mem_filter, mem_values_iff]
  simp

/-- Two owners have no key in common. -/
theorem find?_owned_other {t : Table key} {a b : τ} {k : κ} {v : ν} (hne : a ≠ b)
    (h : getOwned owner t b k = some v) : (owned owner t a).find? (fun v => key v = k) = none := by
  obtain ⟨hk, hb⟩ := key_of_getOwned h
  rw [List.find?_eq_none]
  intro w hw heq
  obtain ⟨hget, ha⟩ := mem_owned_iff.1 hw
  have hv : t.get? k = some v := (Option.filter_eq_some_iff.1 h).1
  rw [decide_eq_true_eq] at heq
  rw [heq, hv] at hget
  obtain rfl := Option.some.inj hget
  exact hne (ha.symm.trans hb)

theorem find?_owned (t : Table key) (a : τ) (p : ν → Prop) [DecidablePred p] :
    (owned owner t a).find? (fun v => p v) = t.values.find? (fun v => owner v = a ∧ p v) := by
  unfold owned
  rw [List.find?_filter]
  simp

end Table

end dict_lib
