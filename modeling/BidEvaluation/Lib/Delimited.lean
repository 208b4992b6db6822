-- Texts that tell what was written. A word ends where a delimiter stands, a
-- closed text ends by itself; what is put together from such parts, with a
-- separator between them and a bracket after them, can be told apart again.
-- So can the segments of a path, from the last one on.
import Mathlib.Data.List.Forall2
import Mathlib.Data.List.Induction
import Mathlib.Data.List.TakeWhile

namespace delimited

variable {χ α β : Type} (Stop : χ → Prop)

/-- What may follow a word: nothing, or a delimiter first. -/
def Ends (rest : List χ) : Prop := ∀ c, rest.head? = some c → Stop c

/-- Where a word may end, the text says which value was written, and where
its text ends. -/
def Told (text : α → List χ) (same : α → α → Prop) (a : α) : Prop :=
  ∀ a' rest rest', Ends Stop rest → Ends Stop rest' → text a ++ rest = text a' ++ rest' →
    same a a' ∧ rest = rest'

variable {Stop}

theorem ends_nil : Ends Stop [] := by
  intro c h
  cases h

theorem ends_cons {c : χ} (h : Stop c) (rest : List χ) : Ends Stop (c :: rest) := by
  intro d hd
  obtain rfl := Option.some.inj hd
  exact h

/-! ## Words -/

theorem word_told {word word' rest rest' : List χ} (hword : ∀ c ∈ word, ¬ Stop c)
    (hword' : ∀ c ∈ word', ¬ Stop c) (hrest : Ends Stop rest) (hrest' : Ends Stop rest')
    (h : word ++ rest = word' ++ rest') : word = word' ∧ rest = rest' := by
  induction word generalizing word' with
  | nil =>
    cases word' with
    | nil => exact ⟨rfl, h⟩
    | cons c' word' =>
      have hstop := hrest c' (by rw [← List.nil_append rest, h]; rfl)
      exact absurd hstop (hword' c' List.mem_cons_self)
  | cons c word ih =>
    cases word' with
    | nil =>
      have hstop := hrest' c (by rw [← List.nil_append rest', ← h]; rfl)
      exact absurd hstop (hword c List.mem_cons_self)
    | cons c' word' =>
      rw [List.cons_append, List.cons_append, List.cons.injEq] at h
      obtain ⟨rfl, htail⟩ := h
      rw [List.forall_mem_cons] at hword hword'
      obtain ⟨rfl, hend⟩ := ih hword.2 hword'.2 htail
      exact ⟨rfl, hend⟩

/-! ## Parts with separators -/

/-- The parts with the separator between them. -/
def joined (sep : χ) : List (List χ) → List χ
  | [] => []
  | [part] => part
  | part :: rest => part ++ sep :: joined sep rest

theorem joined_cons (sep : χ) (part : List χ) (rest : List (List χ)) :
    joined sep (part :: rest) = part ++ rest.flatMap (sep :: ·) := by
  induction rest generalizing part with
  | nil => rw [joined, List.flatMap_nil, List.append_nil]
  | cons next rest ih =>
    rw [joined, ih, List.flatMap_cons, List.cons_append]
    exact List.cons_ne_nil next rest

variable {text : α → List χ} {same : α → α → Prop} {sep close : χ}

theorem ends_more (hsep : Stop sep) (hclose : Stop close) (items : List α) (rest : List χ) :
    Ends Stop ((items.map text).flatMap (sep :: ·) ++ close :: rest) := by
  cases items with
  | nil => exact ends_cons hclose rest
  | cons a items => exact ends_cons hsep _

/-- What follows the first part. -/
theorem tail_told (hsep : Stop sep) (hclose : Stop close) (hne : sep ≠ close) {items : List α}
    (htold : ∀ a ∈ items, Told Stop text same a) {items' : List α} {rest rest' : List χ}
    (h : (items.map text).flatMap (sep :: ·) ++ close :: rest =
      (items'.map text).flatMap (sep :: ·) ++ close :: rest') :
    List.Forall₂ same items items' ∧ rest = rest' := by
  induction items generalizing items' with
  | nil =>
    cases items' with
    | nil => exact ⟨.nil, (List.cons.inj h).2⟩
    | cons a' items' => exact absurd (List.cons.inj h).1.symm hne
  | cons a items ih =>
    cases items' with
    | nil => exact absurd (List.cons.inj h).1 hne
    | cons a' items' =>
      rw [List.forall_mem_cons] at htold
      simp only [List.map_cons, List.flatMap_cons, List.cons_append, List.append_assoc,
        List.cons.injEq, true_and] at h
      obtain ⟨hsame, htail⟩ := htold.1 a' _ _ (ends_more hsep hclose items rest)
        (ends_more hsep hclose items' rest') h
      obtain ⟨hall, hend⟩ := ih htold.2 htail
      exact ⟨.cons hsame hall, hend⟩

/-- A list is told by its parts, if none of them starts like its end. -/
theorem joined_told (hsep : Stop sep) (hclose : Stop close) (hne : sep ≠ close)
    (hopen : ∀ a, ∃ c, (text a).head? = some c ∧ c ≠ close) {items : List α}
    (htold : ∀ a ∈ items, Told Stop text same a) {items' : List α} {rest rest' : List χ}
    (h : joined sep (items.map text) ++ close :: rest =
      joined sep (items'.map text) ++ close :: rest') :
    List.Forall₂ same items items' ∧ rest = rest' := by
  -- A part and the end of the list start with two symbols.
  have hapart : ∀ a more rest, close :: rest ≠ text a ++ more := by
    intro a more rest heq
    obtain ⟨c, hc, hcne⟩ := hopen a
    have hhead : (text a ++ more).head? = some c := by rw [List.head?_append, hc, Option.some_or]
    rw [← heq] at hhead
    exact hcne (Option.some.inj hhead).symm
  cases items with
  | nil =>
    cases items' with
    | nil => exact ⟨.nil, (List.cons.inj h).2⟩
    | cons a' items' =>
      rw [List.map_cons, joined_cons, List.append_assoc] at h
      exact absurd h (hapart a' _ _)
  | cons a items =>
    cases items' with
    | nil =>
      rw [List.map_cons, joined_cons, List.append_assoc] at h
      exact absurd h.symm (hapart a _ _)
    | cons a' items' =>
      rw [List.forall_mem_cons] at htold
      rw [List.map_cons, List.map_cons, joined_cons, joined_cons, List.append_assoc,
        List.append_assoc] at h
      obtain ⟨hsame, htail⟩ := htold.1 a' _ _ (ends_more hsep hclose items rest)
        (ends_more hsep hclose items' rest') h
      obtain ⟨hall, hend⟩ := tail_told hsep hclose hne htold.2 htail
      exact ⟨.cons hsame hall, hend⟩

/-! ## Pairs -/

/-- A closed text first, then a separator, then a told value. -/
theorem pair_told {key : β → List χ} {item : α → List χ}
    (hkey : ∀ k k' rest rest', key k ++ rest = key k' ++ rest' → k = k' ∧ rest = rest') {k : β}
    {a : α} (ha : Told Stop item same a) :
    Told Stop (fun e : β × α => key e.1 ++ sep :: item e.2)
      (fun e e' => e.1 = e'.1 ∧ same e.2 e'.2) (k, a) := by
  rintro ⟨k', a'⟩ rest rest' hrest hrest' h
  simp only [List.append_assoc, List.cons_append] at h
  obtain ⟨rfl, htail⟩ := hkey k k' _ _ h
  obtain ⟨hsame, hend⟩ := ha a' rest rest' hrest hrest' (List.cons.inj htail).2
  exact ⟨⟨rfl, hsame⟩, hend⟩

/-! ## Paths -/

/-- Segments, each with the separator before it. -/
def path (sep : χ) (segments : List (List χ)) : List χ := segments.flatMap (sep :: ·)

theorem path_append (sep : χ) (segments more : List (List χ)) :
    path sep (segments ++ more) = path sep segments ++ path sep more := List.flatMap_append

theorem path_singleton (sep : χ) (segment : List χ) : path sep [segment] = sep :: segment := by
  unfold path
  rw [List.flatMap_cons, List.flatMap_nil, List.append_nil]

/-- The last segment is what stands after the last separator. -/
theorem last_segment_told {start start' segment segment' : List χ} (h : ∀ c ∈ segment, c ≠ sep)
    (h' : ∀ c ∈ segment', c ≠ sep) (heq : start ++ sep :: segment = start' ++ sep :: segment') :
    segment = segment' ∧ start = start' := by
  have hbackwards := congrArg List.reverse heq
  simp only [List.reverse_append, List.reverse_cons, List.append_assoc, List.singleton_append]
    at hbackwards
  have hends : ∀ rest, Ends (fun c => c = sep) (sep :: rest) := ends_cons rfl
  obtain ⟨hword, hrest⟩ := word_told (fun c hc => h c (List.mem_reverse.1 hc))
    (fun c hc => h' c (List.mem_reverse.1 hc)) (hends _) (hends _) hbackwards
  exact ⟨List.reverse_injective hword, List.reverse_injective (List.cons.inj hrest).2⟩

/-- Of two paths at the end of one text, one is the end of the other. -/
theorem path_told {start start' : List χ} {segments segments' : List (List χ)}
    (h : ∀ segment ∈ segments, ∀ c ∈ segment, c ≠ sep)
    (h' : ∀ segment ∈ segments', ∀ c ∈ segment, c ≠ sep)
    (heq : start ++ path sep segments = start' ++ path sep segments') :
    (∃ more, segments' = more ++ segments ∧ start = start' ++ path sep more) ∨
      ∃ more, segments = more ++ segments' ∧ start' = start ++ path sep more := by
  induction segments using List.reverseRecOn generalizing segments' with
  | nil =>
    refine .inl ⟨segments', (List.append_nil _).symm, ?_⟩
    rw [← heq]
    exact (List.append_nil start).symm
  | append_singleton before last ih =>
    rcases List.eq_nil_or_concat segments' with rfl | ⟨before', last', rfl⟩
    · refine .inr ⟨before ++ [last], (List.append_nil _).symm, ?_⟩
      rw [heq]
      exact (List.append_nil start').symm
    · rw [List.concat_eq_append] at h' heq ⊢
      rw [path_append, path_append, path_singleton, path_singleton, ← List.append_assoc,
        ← List.append_assoc] at heq
      obtain ⟨rfl, hstart⟩ := last_segment_told (h last (by simp)) (h' last' (by simp)) heq
      have hbefore := ih (fun s hs => h s (List.mem_append_left _ hs))
        (fun s hs => h' s (List.mem_append_left _ hs)) hstart
      rcases hbefore with ⟨more, rfl, hmore⟩ | ⟨more, rfl, hmore⟩
      · exact .inl ⟨more, by rw [List.append_assoc], hmore⟩
      · exact .inr ⟨more, by rw [List.append_assoc], hmore⟩

end delimited
