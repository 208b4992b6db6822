-- Programs that write a shared state and can raise. As in Python, a raise
-- does not undo the writes before it. A program returns every state that
-- it wrote, oldest first, so that a law can speak about each of them: a
-- crash can come right after any write.
import Mathlib.Data.List.Basic

namespace stepwise

variable {σ ε α β γ : Type}

/-! ## Programs -/

def Prog (σ ε α : Type) : Type := σ → List σ × Except ε α

/-- The state after some writes. -/
def lastState (s : σ) (written : List σ) : σ := written.getLast?.getD s

namespace Prog

/-- The state that a program leaves, whether it returned or raised. -/
def final (m : Prog σ ε α) (s : σ) : σ := lastState s (m s).1

def result (m : Prog σ ε α) (s : σ) : Except ε α := (m s).2

/-- Every state that a program wrote. -/
def written (m : Prog σ ε α) (s : σ) : List σ := (m s).1

def ret (a : α) : Prog σ ε α := fun _ => ([], .ok a)

def andThen (m : Prog σ ε α) (f : α → Prog σ ε β) : Prog σ ε β := fun s =>
  match m s with
  | (l, .error e) => (l, .error e)
  | (l, .ok a) => (l ++ (f a (lastState s l)).1, (f a (lastState s l)).2)

instance : Monad (Prog σ ε) where
  pure := ret
  bind := andThen

end Prog

def raise (e : ε) : Prog σ ε α := fun _ => ([], .error e)

def read : Prog σ ε σ := fun s => ([], .ok s)

def write (f : σ → σ) : Prog σ ε Unit := fun s => ([f s], .ok ())

/-- `try: m` with `except` clauses `handler`. -/
def catching (m : Prog σ ε α) (handler : ε → Prog σ ε α) : Prog σ ε α := fun s =>
  match m s with
  | (l, .ok a) => (l, .ok a)
  | (l, .error e) => (l ++ (handler e (lastState s l)).1, (handler e (lastState s l)).2)

/-- Run a program and return how it ended. -/
def attempt (m : Prog σ ε α) : Prog σ ε (Except ε α) := fun s => ((m s).1, .ok (m s).2)

/-- Return the value of a pure computation, or raise its error. -/
def lift (r : Except ε α) : Prog σ ε α := fun _ => ([], r)

/-! ## What a program does

`Meets R m s Q`: started in `s`, each write of `m` is an `R` step, and at
the end the result and the state satisfy `Q`. -/

/-- Each write is an `R` step from the one before. -/
def Steps (R : σ → σ → Prop) : σ → List σ → Prop
  | _, [] => True
  | s, t :: rest => R s t ∧ Steps R t rest

def Meets (R : σ → σ → Prop) (m : Prog σ ε α) (s : σ) (Q : Except ε α → σ → Prop) : Prop :=
  Steps R s (m.written s) ∧ Q (m.result s) (m.final s)

theorem lastState_append (s : σ) (l l' : List σ) :
    lastState s (l ++ l') = lastState (lastState s l) l' := by
  unfold lastState
  rw [List.getLast?_append]
  cases l'.getLast? <;> simp

theorem lastState_cons (s t : σ) (l : List σ) : lastState s (t :: l) = lastState t l := by
  simpa [lastState] using lastState_append s [t] l

/-- A state that is a view of another changes with it. -/
theorem lastState_map {τ : Type} (f : σ → τ) (s : σ) (l : List σ) :
    lastState (f s) (l.map f) = f (lastState s l) := by
  unfold lastState
  rw [List.getLast?_map]
  cases l.getLast? <;> rfl

theorem steps_append (R : σ → σ → Prop) (s : σ) (l l' : List σ) :
    Steps R s (l ++ l') ↔ Steps R s l ∧ Steps R (lastState s l) l' := by
  induction l generalizing s with
  | nil => simp [Steps, lastState]
  | cons t rest ih => simp only [List.cons_append, Steps, ih, lastState_cons, and_assoc]

variable {R R' : σ → σ → Prop} {s : σ}

theorem Steps.mono {l : List σ} (h : Steps R s l) (hR : ∀ a b, R a b → R' a b) :
    Steps R' s l := by
  induction l generalizing s with
  | nil => trivial
  | cons t rest ih => exact ⟨hR _ _ h.1, ih h.2⟩

/-- What two laws say about the same writes. -/
theorem Steps.and {l : List σ} (h : Steps R s l) (h' : Steps R' s l) :
    Steps (fun a b => R a b ∧ R' a b) s l := by
  induction l generalizing s with
  | nil => trivial
  | cons t rest ih => exact ⟨⟨h.1, h'.1⟩, ih h.2 h'.2⟩

/-- Some of the writes, from the first one on. -/
theorem Steps.take {l : List σ} (h : Steps R s l) (n : Nat) : Steps R s (l.take n) := by
  rw [← List.take_append_drop n l, steps_append] at h
  exact h.1

/-- A reflexive and transitive step relates the start to every write. -/
theorem Steps.mem {l : List σ} (h : Steps R s l) (htrans : ∀ a b c, R a b → R b c → R a c)
    {t : σ} (ht : t ∈ l) : R s t := by
  induction l generalizing s with
  | nil => simp at ht
  | cons u rest ih =>
    rcases List.mem_cons.1 ht with heq | hin
    · exact heq ▸ h.1
    · exact htrans _ _ _ h.1 (ih h.2 hin)

theorem Steps.last {l : List σ} (h : Steps R s l) (hrefl : ∀ a, R a a)
    (htrans : ∀ a b c, R a b → R b c → R a c) : R s (lastState s l) := by
  unfold lastState
  rcases hl : l.getLast? with _ | t
  · exact hrefl s
  · exact h.mem htrans (List.mem_of_getLast? hl)

/-- What every step keeps holds in each state that is written. -/
theorem Steps.invariant {I : σ → Prop} {l : List σ} (h : Steps R s l)
    (hkeep : ∀ a b, R a b → I a → I b) (hs : I s) : ∀ t ∈ l, I t := by
  induction l generalizing s with
  | nil => simp
  | cons u rest ih =>
    have hu := hkeep _ _ h.1 hs
    intro t ht
    rcases List.mem_cons.1 ht with heq | hin
    · exact heq ▸ hu
    · exact ih h.2 hu t hin

theorem Steps.invariant_last {I : σ → Prop} {l : List σ} (h : Steps R s l)
    (hkeep : ∀ a b, R a b → I a → I b) (hs : I s) : I (lastState s l) := by
  have hall := h.invariant hkeep hs
  unfold lastState
  rcases hl : l.getLast? with _ | t
  · exact hs
  · exact hall t (List.mem_of_getLast? hl)

/-! ## One rule for each program form -/

section rules

variable {m : Prog σ ε α} {Q Q' : Except ε α → σ → Prop}

@[simp] theorem meets_pure {a : α} : Meets R (pure a : Prog σ ε α) s Q ↔ Q (.ok a) s := by
  simp [Meets, Prog.written, Prog.result, Prog.final, pure, Prog.ret, Steps, lastState]

@[simp] theorem meets_raise {e : ε} : Meets R (raise e : Prog σ ε α) s Q ↔ Q (.error e) s := by
  simp [Meets, Prog.written, Prog.result, Prog.final, raise, Steps, lastState]

@[simp] theorem meets_lift {r : Except ε α} : Meets R (lift r : Prog σ ε α) s Q ↔ Q r s := by
  simp [Meets, Prog.written, Prog.result, Prog.final, lift, Steps, lastState]

@[simp] theorem meets_read {Q : Except ε σ → σ → Prop} :
    Meets R (read : Prog σ ε σ) s Q ↔ Q (.ok s) s := by
  simp [Meets, Prog.written, Prog.result, Prog.final, read, Steps, lastState]

@[simp] theorem meets_write {f : σ → σ} {Q : Except ε Unit → σ → Prop} :
    Meets R (write f : Prog σ ε Unit) s Q ↔ R s (f s) ∧ Q (.ok ()) (f s) := by
  simp [Meets, Prog.written, Prog.result, Prog.final, write, Steps, lastState]

/-- The condition on what comes after a program that may raise. -/
def Then (R : σ → σ → Prop) (f : α → Prog σ ε β) (Q : Except ε β → σ → Prop) :
    Except ε α → σ → Prop
  | .ok a, s => Meets R (f a) s Q
  | .error e, s => Q (.error e) s

@[simp] theorem then_ok {f : α → Prog σ ε β} {Q : Except ε β → σ → Prop} {a : α} :
    Then R f Q (.ok a) s ↔ Meets R (f a) s Q := Iff.rfl

@[simp] theorem then_error {f : α → Prog σ ε β} {Q : Except ε β → σ → Prop} {e : ε} :
    Then R f Q (.error e) s ↔ Q (.error e) s := Iff.rfl

@[simp] theorem meets_bind {f : α → Prog σ ε β} {Q : Except ε β → σ → Prop} :
    Meets R (m >>= f) s Q ↔ Meets R m s (Then R f Q) := by
  show Meets R (Prog.andThen m f) s Q ↔ _
  unfold Meets Prog.written Prog.result Prog.final Prog.andThen
  rcases hm : m s with ⟨l, e | a⟩
  · simp [Then]
  · simp [Then, Meets, Prog.written, Prog.result, Prog.final, steps_append, lastState_append,
      and_assoc]

/-- Run a program, then what comes after it. -/
theorem Meets.bind {f : α → Prog σ ε β} {Q : Except ε β → σ → Prop}
    {P : Except ε α → σ → Prop} (h : Meets R m s P)
    (hok : ∀ a t, P (.ok a) t → Meets R (f a) t Q)
    (herror : ∀ e t, P (.error e) t → Q (.error e) t) : Meets R (m >>= f) s Q := by
  rw [meets_bind]
  refine ⟨h.1, ?_⟩
  have hP := h.2
  rcases hr : m.result s with e | a
  · exact herror e _ (hr ▸ hP)
  · exact hok a _ (hr ▸ hP)

theorem result_bind {f : α → Prog σ ε β} {a : α} (h : m.result s = .ok a) :
    (m >>= f).result s = (f a).result (m.final s) := by
  show (Prog.andThen m f).result s = _
  unfold Prog.result Prog.final Prog.andThen at *
  rcases hm : m s with ⟨l, r⟩
  rw [hm] at h
  cases h
  rfl

theorem final_bind {f : α → Prog σ ε β} {a : α} (h : m.result s = .ok a) :
    (m >>= f).final s = (f a).final (m.final s) := by
  show (Prog.andThen m f).final s = _
  unfold Prog.result Prog.final Prog.andThen at *
  rcases hm : m s with ⟨l, r⟩
  rw [hm] at h
  cases h
  exact lastState_append s l _

theorem result_bind_error {f : α → Prog σ ε β} {e : ε} (h : m.result s = .error e) :
    (m >>= f).result s = .error e := by
  show (Prog.andThen m f).result s = _
  unfold Prog.result Prog.andThen at *
  rcases hm : m s with ⟨l, r⟩
  rw [hm] at h
  cases h
  rfl

theorem final_bind_error {f : α → Prog σ ε β} {e : ε} (h : m.result s = .error e) :
    (m >>= f).final s = m.final s := by
  show (Prog.andThen m f).final s = _
  unfold Prog.result Prog.final Prog.andThen at *
  rcases hm : m s with ⟨l, r⟩
  rw [hm] at h
  cases h
  rfl

theorem result_read {f : σ → Prog σ ε β} : (read >>= f).result s = (f s).result s := rfl

theorem final_read {f : σ → Prog σ ε β} : (read >>= f).final s = (f s).final s := rfl

theorem then_assoc {f : α → Prog σ ε β} {g : β → Prog σ ε γ} :
    (m >>= f) >>= g = m >>= fun a => f a >>= g := by
  funext s
  show Prog.andThen (Prog.andThen m f) g s = Prog.andThen m (fun a => Prog.andThen (f a) g) s
  unfold Prog.andThen
  rcases m s with ⟨l, e | a⟩
  · rfl
  · dsimp only
    rcases f a (lastState s l) with ⟨l', e | b⟩
    · rfl
    · simp [lastState_append]

/-- A loop over two lists is a loop over each, one after the other. -/
theorem foldlM_split {f : γ → β → Prog σ ε γ} (acc : γ) (l l' : List β) :
    (l ++ l').foldlM f acc = l.foldlM f acc >>= fun acc => l'.foldlM f acc := by
  induction l generalizing acc with
  | nil => rfl
  | cons x rest ih =>
    rw [List.cons_append, List.foldlM_cons, List.foldlM_cons, then_assoc]
    congr 1
    funext acc'
    exact ih acc'

/-- What a program returns does not change the state. -/
theorem final_bind_pure (g : α → β) : (m >>= fun a => pure (g a)).final s = m.final s := by
  rcases hm : m.result s with e | a
  · exact final_bind_error hm
  · exact final_bind hm

theorem written_bind_pure (g : α → β) : (m >>= fun a => pure (g a)).written s = m.written s := by
  show (Prog.andThen m fun a => Prog.ret (g a)).written s = _
  unfold Prog.written Prog.andThen Prog.ret
  rcases m s with ⟨l, e | a⟩
  · rfl
  · exact List.append_nil l

/-- What is computed of a result does not change the state. -/
theorem final_bind_lift (f : α → Except ε β) : (m >>= fun a => lift (f a)).final s = m.final s := by
  rcases hm : m.result s with e | a
  · exact final_bind_error hm
  · exact final_bind hm

theorem result_bind_lift (f : α → Except ε β) :
    (m >>= fun a => lift (f a)).result s = m.result s >>= f := by
  rcases hm : m.result s with e | a
  · exact result_bind_error hm
  · exact result_bind hm

theorem ok_of_toOption {r : Except ε α} {a : α} (h : r.toOption = some a) : r = .ok a := by
  rcases r with e | b
  · cases h
  · cases h
    rfl

@[simp] theorem result_attempt : (attempt m).result s = .ok (m.result s) := rfl

@[simp] theorem final_attempt : (attempt m).final s = m.final s := rfl

/-- The condition on what an `except` clause does. -/
def Handled (R : σ → σ → Prop) (handler : ε → Prog σ ε α) (Q : Except ε α → σ → Prop) :
    Except ε α → σ → Prop
  | .ok a, s => Q (.ok a) s
  | .error e, s => Meets R (handler e) s Q

@[simp] theorem handled_ok {handler : ε → Prog σ ε α} {a : α} :
    Handled R handler Q (.ok a) s ↔ Q (.ok a) s := Iff.rfl

@[simp] theorem handled_error {handler : ε → Prog σ ε α} {e : ε} :
    Handled R handler Q (.error e) s ↔ Meets R (handler e) s Q := Iff.rfl

@[simp] theorem meets_catching {handler : ε → Prog σ ε α} :
    Meets R (catching m handler) s Q ↔ Meets R m s (Handled R handler Q) := by
  unfold Meets Prog.written Prog.result Prog.final catching
  rcases hm : m s with ⟨l, e | a⟩
  · simp [Handled, Meets, Prog.written, Prog.result, Prog.final, steps_append, lastState_append,
      and_assoc]
  · simp [Handled]

theorem Meets.catching {handler : ε → Prog σ ε α} {P : Except ε α → σ → Prop}
    (h : Meets R m s P) (hok : ∀ a t, P (.ok a) t → Q (.ok a) t)
    (herror : ∀ e t, P (.error e) t → Meets R (handler e) t Q) :
    Meets R (catching m handler) s Q := by
  rw [meets_catching]
  refine ⟨h.1, ?_⟩
  have hP := h.2
  rcases hr : m.result s with e | a
  · exact herror e _ (hr ▸ hP)
  · exact hok a _ (hr ▸ hP)

theorem meets_ite {c : Prop} [Decidable c] {a b : Prog σ ε α} :
    Meets R (if c then a else b) s Q ↔ (c → Meets R a s Q) ∧ (¬ c → Meets R b s Q) := by
  split <;> simp_all

theorem Meets.mono (h : Meets R m s Q) (hR : ∀ a b, R a b → R' a b)
    (hQ : ∀ r t, Q r t → Q' r t) : Meets R' m s Q' :=
  ⟨h.1.mono hR, hQ _ _ h.2⟩

theorem Meets.post (h : Meets R m s Q) (hQ : ∀ r t, Q r t → Q' r t) : Meets R m s Q' :=
  ⟨h.1, hQ _ _ h.2⟩

/-- The steps of one fact and the end of another, about the same program. -/
theorem Meets.ending {R' : σ → σ → Prop} (h : Meets R m s Q) (h' : Meets R' m s Q') :
    Meets R m s Q' := ⟨h.1, h'.2⟩

/-- A program is deterministic, so two facts about one run hold together. -/
theorem Meets.and (h : Meets R m s Q) (h' : Meets R m s Q') :
    Meets R m s (fun r t => Q r t ∧ Q' r t) :=
  ⟨h.1, h.2, h'.2⟩

end rules

/-! ## What every run of a program keeps -/

/-- Whatever the start, each write of the program is an `R` step. -/
def Keeps (R : σ → σ → Prop) (m : Prog σ ε α) : Prop := ∀ s, Steps R s (m.written s)

section keeps

variable {m : Prog σ ε α}

theorem keeps_iff : Keeps R m ↔ ∀ s, Meets R m s (fun _ _ => True) := by
  simp [Keeps, Meets]

theorem Keeps.meets (h : Keeps R m) (s : σ) : Meets R m s (fun _ _ => True) := ⟨h s, trivial⟩

/-- A program ends with its own result, in its own final state. -/
theorem Keeps.ends (h : Keeps R m) (s : σ) :
    Meets R m s (fun r t => r = m.result s ∧ t = m.final s) := ⟨h s, rfl, rfl⟩

theorem Keeps.mono (h : Keeps R m) (hR : ∀ a b, R a b → R' a b) : Keeps R' m :=
  fun s => (h s).mono hR

theorem Keeps.final (h : Keeps R m) (hrefl : ∀ a, R a a)
    (htrans : ∀ a b c, R a b → R b c → R a c) (s : σ) : R s (m.final s) :=
  (h s).last hrefl htrans

theorem steps_true (s : σ) (l : List σ) : Steps (fun _ _ => True) s l := by
  induction l generalizing s with
  | nil => trivial
  | cons t rest ih => exact ⟨trivial, ih t⟩

theorem keeps_true (m : Prog σ ε α) : Keeps (fun _ _ => True) m := fun _ => steps_true _ _

theorem keeps_pure (a : α) : Keeps R (pure a : Prog σ ε α) := fun _ => trivial

theorem keeps_raise (e : ε) : Keeps R (raise e : Prog σ ε α) := fun _ => trivial

theorem keeps_lift (r : Except ε α) : Keeps R (lift r : Prog σ ε α) := fun _ => trivial

theorem keeps_read : Keeps R (read : Prog σ ε σ) := fun _ => trivial

theorem keeps_write {f : σ → σ} (h : ∀ s, R s (f s)) : Keeps R (write f : Prog σ ε Unit) :=
  fun s => ⟨h s, trivial⟩

theorem keeps_bind {f : α → Prog σ ε β} (h : Keeps R m) (hf : ∀ a, Keeps R (f a)) :
    Keeps R (m >>= f) := by
  rw [keeps_iff]
  intro s
  rw [meets_bind]
  refine (h.meets s).post ?_
  rintro (e | a) t _
  · trivial
  · exact (hf a).meets t

theorem keeps_catching {handler : ε → Prog σ ε α} (h : Keeps R m)
    (hh : ∀ e, Keeps R (handler e)) : Keeps R (catching m handler) := by
  rw [keeps_iff]
  intro s
  rw [meets_catching]
  refine (h.meets s).post ?_
  rintro (e | a) t _
  · exact (hh e).meets t
  · trivial

theorem keeps_ite {c : Prop} [Decidable c] {a b : Prog σ ε α} (ha : Keeps R a)
    (hb : Keeps R b) : Keeps R (if c then a else b) := by
  split
  · exact ha
  · exact hb

theorem keeps_foldlM {f : γ → β → Prog σ ε γ} (h : ∀ acc x, Keeps R (f acc x)) (acc : γ)
    (l : List β) : Keeps R (l.foldlM f acc) := by
  induction l generalizing acc with
  | nil => exact keeps_pure acc
  | cons x rest ih => exact keeps_bind (h acc x) ih

end keeps

/-! ## Programs that never raise -/

/-- Whatever the start, the program returns. -/
def Returns (m : Prog σ ε α) : Prop := ∀ s, ∃ a, m.result s = .ok a

section returns

variable {m : Prog σ ε α}

theorem returns_iff : Returns m ↔ ∀ s, Meets (fun _ _ => True) m s (fun r _ => ∃ a, r = .ok a) :=
  ⟨fun h s => ⟨keeps_true m s, h s⟩, fun h s => (h s).2⟩

theorem returns_pure (a : α) : Returns (pure a : Prog σ ε α) := fun _ => ⟨a, rfl⟩

theorem returns_read : Returns (read : Prog σ ε σ) := fun s => ⟨s, rfl⟩

theorem returns_write (f : σ → σ) : Returns (write f : Prog σ ε Unit) := fun _ => ⟨(), rfl⟩

theorem returns_bind {f : α → Prog σ ε β} (h : Returns m) (hf : ∀ a, Returns (f a)) :
    Returns (m >>= f) := by
  rw [returns_iff] at h ⊢
  refine fun s => (h s).bind (fun a t _ => returns_iff.1 (hf a) t) ?_
  rintro e t ⟨a, ha⟩
  cases ha

theorem returns_ite {c : Prop} [Decidable c] {a b : Prog σ ε α} (ha : Returns a)
    (hb : Returns b) : Returns (if c then a else b) := by
  split
  · exact ha
  · exact hb

theorem returns_foldlM {f : γ → β → Prog σ ε γ} (h : ∀ acc x, Returns (f acc x)) (acc : γ)
    (l : List β) : Returns (l.foldlM f acc) := by
  induction l generalizing acc with
  | nil => exact returns_pure acc
  | cons x rest ih => exact returns_bind (h acc x) ih

end returns

/-- A loop with an invariant on the accumulator and the state. -/
theorem meets_foldlM {f : γ → β → Prog σ ε γ} {I : γ → σ → Prop} {E : ε → σ → Prop}
    (h : ∀ acc x t, I acc t → Meets R (f acc x) t
      (fun r t' => match r with | .ok acc' => I acc' t' | .error e => E e t'))
    (acc : γ) (l : List β) (s : σ) (hs : I acc s) :
    Meets R (l.foldlM f acc) s
      (fun r t' => match r with | .ok acc' => I acc' t' | .error e => E e t') := by
  induction l generalizing acc s with
  | nil =>
    rw [List.foldlM_nil, meets_pure]
    exact hs
  | cons x rest ih =>
    rw [List.foldlM_cons, meets_bind]
    refine (h acc x s hs).post ?_
    rintro (e | acc') t ht
    · exact ht
    · exact ih acc' t ht

end stepwise
