-- What holds of the value of a computation whenever it returns one. A raise
-- promises nothing.
import BidEvaluation.Lib.Stepwise

namespace stepwise

variable {σ ε α β γ : Type}

/-- `P` holds of the value, if there is one. -/
def Gives (r : Except ε α) (P : α → Prop) : Prop := ∀ a, r = .ok a → P a

section rules

variable {P : α → Prop} {Q : β → Prop}

@[simp] theorem gives_ok {a : α} : Gives (.ok a : Except ε α) P ↔ P a := by
  constructor
  · exact fun h => h a rfl
  · rintro h _ ⟨⟩
    exact h

@[simp] theorem gives_pure {a : α} : Gives (pure a : Except ε α) P ↔ P a := gives_ok

@[simp] theorem gives_error {e : ε} : Gives (.error e : Except ε α) P := by
  rintro _ ⟨⟩

theorem Gives.mono {P' : α → Prop} {r : Except ε α} (h : Gives r P) (hP : ∀ a, P a → P' a) :
    Gives r P' :=
  fun a ha => hP a (h a ha)

theorem Gives.bind {r : Except ε α} {f : α → Except ε β} (h : Gives r P)
    (hf : ∀ a, P a → Gives (f a) Q) : Gives (r >>= f) Q := by
  rcases r with e | a
  · exact gives_error
  · exact hf a (h a rfl)

/-- Nothing is asked of what comes before. -/
theorem gives_bind {r : Except ε α} {f : α → Except ε β} (hf : ∀ a, Gives (f a) Q) :
    Gives (r >>= f) Q :=
  Gives.bind (P := fun _ => True) (fun _ _ => trivial) fun a _ => hf a

theorem gives_mapM {f : α → Except ε β} {l : List α} (h : ∀ a ∈ l, Gives (f a) Q) :
    Gives (l.mapM f) (fun l' => ∀ b ∈ l', Q b) := by
  induction l with
  | nil =>
    rw [List.mapM_nil, gives_pure]
    simp
  | cons a rest ih =>
    rw [List.mapM_cons]
    refine (h a List.mem_cons_self).bind fun b hb => ?_
    refine (ih fun a ha => h a (List.mem_cons_of_mem _ ha)).bind fun l' hl' => ?_
    rw [gives_pure]
    intro c hc
    rcases List.mem_cons.1 hc with rfl | hc
    · exact hb
    · exact hl' c hc

theorem gives_mapM_length {f : α → Except ε β} {l : List α} :
    Gives (l.mapM f) (fun l' => l'.length = l.length) := by
  induction l with
  | nil => exact gives_pure.2 rfl
  | cons a rest ih =>
    rw [List.mapM_cons]
    refine gives_bind fun b => ih.bind fun l' hl' => ?_
    rw [gives_pure, List.length_cons, List.length_cons, hl']

/-- A loop keeps an invariant of its accumulator. -/
theorem gives_foldlM {I : γ → Prop} {f : γ → α → Except ε γ} {l : List α} {acc : γ} (h : I acc)
    (hf : ∀ acc, ∀ a ∈ l, I acc → Gives (f acc a) I) : Gives (l.foldlM f acc) I := by
  induction l generalizing acc with
  | nil => exact gives_pure.2 h
  | cons a rest ih =>
    rw [List.foldlM_cons]
    refine (hf acc a List.mem_cons_self h).bind fun acc' h' => ?_
    exact ih h' fun acc a ha => hf acc a (List.mem_cons_of_mem _ ha)

/-- A loop whose every turn adds what it finds has found all in the end. -/
theorem gives_foldlM_exists {R : γ → Prop} {f : γ → α → Except ε γ} {l : List α} {acc : γ}
    (hf : ∀ acc, ∀ a ∈ l, Gives (f acc a) fun acc' => R acc' ↔ R acc ∨ P a) :
    Gives (l.foldlM f acc) fun acc' => R acc' ↔ R acc ∨ ∃ a ∈ l, P a := by
  induction l generalizing acc with
  | nil =>
    rw [List.foldlM_nil, gives_pure]
    simp
  | cons a rest ih =>
    rw [List.foldlM_cons]
    refine (hf acc a List.mem_cons_self).bind fun acc' h' => ?_
    refine (ih fun acc b hb => hf acc b (List.mem_cons_of_mem _ hb)).mono fun acc'' h'' => ?_
    rw [h'', h', or_assoc]
    simp only [List.mem_cons, exists_eq_or_imp]

theorem gives_mapM_exists {R : β → Prop} {f : α → Except ε β} {l : List α}
    (hf : ∀ a ∈ l, Gives (f a) fun b => R b ↔ P a) :
    Gives (l.mapM f) fun l' => (∃ b ∈ l', R b) ↔ ∃ a ∈ l, P a := by
  induction l with
  | nil =>
    rw [List.mapM_nil, gives_pure]
    simp
  | cons a rest ih =>
    rw [List.mapM_cons]
    refine (hf a List.mem_cons_self).bind fun b hb => ?_
    refine (ih fun a ha => hf a (List.mem_cons_of_mem _ ha)).bind fun l' hl' => ?_
    rw [gives_pure]
    simp only [List.mem_cons, exists_eq_or_imp, hb, hl']

end rules

/-! ## Computations that return -/

/-- The computation returns a value. -/
def Yields (r : Except ε α) : Prop := ∃ a, r = .ok a

section yields

@[simp] theorem yields_ok (a : α) : Yields (.ok a : Except ε α) := ⟨a, rfl⟩

@[simp] theorem yields_pure (a : α) : Yields (pure a : Except ε α) := ⟨a, rfl⟩

@[simp] theorem not_yields_error (e : ε) : ¬Yields (.error e : Except ε α) := by
  rintro ⟨a, h⟩
  cases h

theorem yields_bind {r : Except ε α} {f : α → Except ε β} :
    Yields (r >>= f) ↔ ∃ a, r = .ok a ∧ Yields (f a) := by
  rcases r with e | a
  · constructor
    · exact fun h => absurd h (not_yields_error e)
    · rintro ⟨a, h, -⟩
      cases h
  · constructor
    · exact fun h => ⟨a, rfl, h⟩
    · rintro ⟨_, ⟨⟩, h⟩
      exact h

/-- What follows returns for every value, so only the first part counts. -/
theorem yields_bind_iff {r : Except ε α} {f : α → Except ε β} (hf : ∀ a, r = .ok a → Yields (f a)) :
    Yields (r >>= f) ↔ Yields r := by
  rw [yields_bind]
  constructor
  · rintro ⟨a, h, -⟩
    exact ⟨a, h⟩
  · rintro ⟨a, h⟩
    exact ⟨a, h, hf a h⟩

theorem yields_mapM {f : α → Except ε β} {l : List α} :
    Yields (l.mapM f) ↔ ∀ a ∈ l, Yields (f a) := by
  induction l with
  | nil => simp
  | cons a rest ih =>
    rw [List.mapM_cons, yields_bind, List.forall_mem_cons, ← ih]
    constructor
    · rintro ⟨b, hb, h⟩
      obtain ⟨l', hl', -⟩ := yields_bind.1 h
      exact ⟨⟨b, hb⟩, ⟨l', hl'⟩⟩
    · rintro ⟨⟨b, hb⟩, ⟨l', hl'⟩⟩
      refine ⟨b, hb, ?_⟩
      rw [hl']
      exact yields_pure _

theorem mapM_eq_ok {f : α → Except ε β} {g : α → β} {l : List α} (h : ∀ a ∈ l, f a = .ok (g a)) :
    l.mapM f = .ok (l.map g) := by
  induction l with
  | nil => rfl
  | cons a rest ih =>
    rw [List.mapM_cons, h a List.mem_cons_self, ih fun b hb => h b (List.mem_cons_of_mem _ hb)]
    rfl

/-- A loop raises what the first element raises that raises. -/
theorem mapM_error_iff {f : α → Except ε β} {l : List α} {e : ε} :
    l.mapM f = .error e ↔
      ∃ good a rest, l = good ++ a :: rest ∧ (∀ b ∈ good, Yields (f b)) ∧ f a = .error e := by
  induction l with
  | nil =>
    refine iff_of_false ?_ ?_
    · rw [List.mapM_nil]
      rintro ⟨⟩
    · rintro ⟨good, a, rest, h, -⟩
      simp at h
  | cons first l ih =>
    rw [List.mapM_cons]
    rcases hfirst : f first with e' | b
    · constructor
      · rintro ⟨⟩
        exact ⟨[], first, l, rfl, by simp, hfirst⟩
      · rintro ⟨good, a, rest, h, hgood, ha⟩
        cases good with
        | nil =>
          cases h
          rw [hfirst] at ha
          exact ha ▸ rfl
        | cons b good =>
          cases h
          refine absurd (hgood _ List.mem_cons_self) ?_
          rw [hfirst]
          exact not_yields_error e'
    · have hrest : (Except.ok b >>= fun b => l.mapM f >>= fun l' => pure (b :: l')) = .error e ↔
          l.mapM f = .error e := by
        change (l.mapM f >>= fun l' => pure (b :: l')) = .error e ↔ _
        rcases l.mapM f with e' | l'
        · exact Iff.rfl
        · exact iff_of_false nofun nofun
      rw [hrest, ih]
      constructor
      · rintro ⟨good, a, rest, rfl, hgood, ha⟩
        refine ⟨first :: good, a, rest, rfl, ?_, ha⟩
        exact List.forall_mem_cons.2 ⟨⟨b, hfirst⟩, hgood⟩
      · rintro ⟨good, a, rest, h, hgood, ha⟩
        cases good with
        | nil =>
          cases h
          rw [hfirst] at ha
          cases ha
        | cons b' good =>
          cases h
          exact ⟨good, a, rest, rfl, fun b hb => hgood b (List.mem_cons_of_mem _ hb), ha⟩

end yields

/-! ## Programs -/

section programs

variable {m : Prog σ ε α} {f : α → Prog σ ε β} {s : σ} {P : α → Prop} {Q : β → Prop}

theorem Gives.then (h : Gives (m.result s) P)
    (hf : ∀ a t, P a → Gives ((f a).result t) Q) : Gives ((m >>= f).result s) Q := by
  rcases hr : m.result s with e | a
  · rw [result_bind_error hr]
    exact gives_error
  · rw [result_bind hr]
    exact hf a _ (h a hr)

/-- Nothing is asked of what comes before. -/
theorem gives_then (hf : ∀ a t, Gives ((f a).result t) Q) : Gives ((m >>= f).result s) Q :=
  Gives.then (P := fun _ => True) (fun _ _ => trivial) fun a t _ => hf a t

end programs

end stepwise
