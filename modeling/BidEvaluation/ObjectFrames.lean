-- What each operation of the local object storage reads and writes. A read
-- looks at the object's file and its sidecar; a write touches a few places,
-- and all others are as before.
import BidEvaluation.ObjectStorage

open dict_lib file_tree stepwise lockstep bid_evaluation.values bid_evaluation.object_storage

namespace bid_evaluation.object_frames

variable {β α α' : Type} {storage : LocalObjectStorage β} {t t' : FileTree β} {path : Path}
  {storage_uri : String} {now : Time}

/-! ## Reads -/

/-- The program writes nothing, and what stands at the ends of the paths
decides its answer. -/
structure Looks (paths : List Path) (m : Act β α) : Prop where
  quiet : ∀ t, m.written t = []
  same : ∀ t t', (∀ path ∈ paths, lookup t' path = lookup t path) → m.result t' = m.result t

variable {paths : List Path} {m : Act β α}

theorem Looks.final (h : Looks paths m) (t : FileTree β) : m.final t = t := by
  show lastState t (m.written t) = t
  rw [h.quiet t]
  rfl

theorem Looks.meets (h : Looks paths m) {R : FileTree β → FileTree β → Prop} (t : FileTree β) :
    Meets R m t (fun r t' => r = m.result t ∧ t' = t) := by
  refine ⟨?_, rfl, h.final t⟩
  rw [h.quiet t]
  trivial

theorem Looks.keeps (h : Looks paths m) {R : FileTree β → FileTree β → Prop} : Keeps R m :=
  fun t => (h.meets t).1

theorem looks_pure (a : α) : Looks paths (pure a : Act β α) := ⟨fun _ => rfl, fun _ _ _ => rfl⟩

theorem looks_lift (r : Except PyErr α) : Looks paths (lift r : Act β α) :=
  ⟨fun _ => rfl, fun _ _ _ => rfl⟩

theorem looks_raise (e : PyErr) : Looks paths (raise e : Act β α) :=
  ⟨fun _ => rfl, fun _ _ _ => rfl⟩

theorem looks_bind {f : α → Act β α'} (h : Looks paths m) (hf : ∀ a, Looks paths (f a)) :
    Looks paths (m >>= f) := by
  have hwritten : ∀ t, (m >>= f).written t = [] := by
    intro t
    have hm := h.quiet t
    show (Prog.andThen m f t).1 = []
    unfold Prog.andThen Prog.written at *
    rcases hrun : m t with ⟨l, e | a⟩
    · rw [hrun] at hm
      exact hm
    · rw [hrun] at hm
      show l ++ (f a (lastState t l)).1 = []
      rw [show l = [] from hm]
      exact (hf a).quiet t
  refine ⟨hwritten, fun t t' hsame => ?_⟩
  have hm := h.same t t' hsame
  rcases hr : m.result t with e | a
  · rw [result_bind_error hr, result_bind_error (hm.trans hr)]
  · rw [result_bind hr, result_bind (hm.trans hr), h.final, h.final]
    exact (hf a).same t t' hsame

theorem looks_ite {c : Prop} [Decidable c] {a b : Act β α} (ha : Looks paths a)
    (hb : Looks paths b) : Looks paths (if c then a else b) := by
  split
  · exact ha
  · exact hb

theorem looks_path_exists (hin : path ∈ paths) : Looks paths (path_exists storage path) := by
  refine looks_ite ⟨fun _ => rfl, fun t t' hsame => ?_⟩ (looks_raise _)
  show Except.ok (lookup t' path).isSome = Except.ok (lookup t path).isSome
  rw [hsame path hin]

theorem path_exists_result (storage : LocalObjectStorage β) (path : Path) (t : FileTree β) :
    (path_exists storage path).result t =
      if fits storage path then .ok (lookup t path).isSome else .error os_error := by
  unfold path_exists
  split <;> rfl

theorem looks_read_bytes (hin : path ∈ paths) : Looks paths (read_bytes path : Act β β) := by
  refine ⟨fun _ => rfl, fun t t' hsame => ?_⟩
  show content_of (lookup t' path) = content_of (lookup t path)
  rw [hsame path hin]

theorem looks_read_meta (hin : meta_path path ∈ paths) : Looks paths (read_meta storage path) :=
  looks_bind (looks_path_exists hin) fun _ =>
    looks_ite (looks_bind (looks_read_bytes hin) fun _ => looks_lift _) (looks_pure _)

theorem path_exists_quiet (storage : LocalObjectStorage β) (path : Path) (t : FileTree β) :
    (path_exists storage path).final t = t :=
  (looks_path_exists (List.mem_singleton_self path)).final t

theorem read_meta_quiet (storage : LocalObjectStorage β) (path : Path) (t : FileTree β) :
    (read_meta storage path).final t = t :=
  (looks_read_meta (List.mem_singleton_self (meta_path path))).final t

theorem keeps_path_exists {R : FileTree β → FileTree β → Prop} : Keeps R (path_exists storage path) :=
  (looks_path_exists (List.mem_singleton_self path)).keeps

theorem keeps_read_meta {R : FileTree β → FileTree β → Prop} : Keeps R (read_meta storage path) :=
  (looks_read_meta (List.mem_singleton_self (meta_path path))).keeps

/-- The two paths of an object. -/
def object_paths (storage : LocalObjectStorage β) (storage_uri : String) : List Path :=
  match path_for_uri storage storage_uri with
  | .ok path => [path, meta_path path]
  | .error _ => []

/-- An operation that first resolves its address. -/
theorem looks_uri {f : Path → Act β α} (hf : ∀ path, path ∈ object_paths storage storage_uri →
    meta_path path ∈ object_paths storage storage_uri →
      Looks (object_paths storage storage_uri) (f path)) :
    Looks (object_paths storage storage_uri)
      (lift (path_for_uri storage storage_uri) >>= f) := by
  rcases hpath : path_for_uri storage storage_uri with e | path
  · exact ⟨fun _ => rfl, fun _ _ _ => rfl⟩
  · have hpaths : object_paths storage storage_uri = [path, meta_path path] := by
      rw [object_paths, hpath]
    have hin : path ∈ object_paths storage storage_uri ∧
        meta_path path ∈ object_paths storage storage_uri := by simp [hpaths]
    exact hf path hin.1 hin.2

theorem looks_get_object :
    Looks (object_paths storage storage_uri) (get_object storage storage_uri) :=
  looks_uri fun _ hpath _ => looks_bind (looks_path_exists hpath) fun _ =>
    looks_ite (looks_read_bytes hpath) (looks_raise _)

theorem looks_is_legal_hold_active :
    Looks (object_paths storage storage_uri) (is_legal_hold_active storage storage_uri) :=
  looks_uri fun _ hpath hmeta => looks_bind (looks_path_exists hpath) fun _ =>
    looks_ite (looks_bind (looks_read_meta hmeta) fun _ => looks_bind (looks_lift _) fun _ =>
      looks_pure _) (looks_pure _)

theorem looks_get_retention :
    Looks (object_paths storage storage_uri) (get_retention storage storage_uri) :=
  looks_uri fun _ hpath hmeta => looks_bind (looks_path_exists hpath) fun _ =>
    looks_ite (looks_bind (looks_read_meta hmeta) fun _ => looks_bind (looks_lift _) fun _ =>
      looks_ite (looks_pure _) (looks_pure _)) (looks_pure _)

theorem looks_is_retention_active :
    Looks (object_paths storage storage_uri) (is_retention_active storage storage_uri now) :=
  looks_bind looks_get_retention fun _ => looks_pure _

theorem is_legal_hold_active_quiet (storage : LocalObjectStorage β) (storage_uri : String)
    (t : FileTree β) : (is_legal_hold_active storage storage_uri).final t = t :=
  looks_is_legal_hold_active.final t

theorem is_retention_active_quiet (storage : LocalObjectStorage β) (storage_uri : String) (now : Time)
    (t : FileTree β) : (is_retention_active storage storage_uri now).final t = t :=
  looks_is_retention_active.final t

/-! ## Writes -/

/-- A program that reads the tree first. -/
theorem keeps_of_read {R : FileTree β → FileTree β → Prop} {f : FileTree β → Act β α}
    (h : ∀ t, Steps R t ((f t).written t)) : Keeps R (stepwise.read >>= f) := h

theorem write_bytes_spares (content : β) :
    Keeps (Spares {placeOf path}) (write_bytes storage path content) := by
  refine keeps_of_read fun t => ?_
  split
  · rename_i t' h
    split at h
    · exact ⟨writeFile_spares h, trivial⟩
    · cases h
  · trivial

theorem unlink_path_spares : Keeps (Spares {placeOf path}) (unlink_path path : Act β Unit) := by
  refine keeps_of_read fun t => ?_
  split
  · rename_i t' h
    exact ⟨unlink_spares h, trivial⟩
  · trivial

theorem mkdir_spares : Keeps (Spares {p | p ∈ ways path}) (mkdir storage path) := by
  unfold mkdir
  refine keeps_ite (keeps_of_read fun t => ?_) (keeps_raise _)
  split
  · exact ⟨makeDirs_spares t path, trivial⟩
  · exact ⟨makeDirs_spares t path, trivial⟩

/-! ## The places of an operation -/

def object_places (storage : LocalObjectStorage β) (storage_uri : String) : List Place :=
  (object_paths storage storage_uri).map placeOf

def sidecar_places (storage : LocalObjectStorage β) (storage_uri : String) : List Place :=
  match path_for_uri storage storage_uri with
  | .ok path => [placeOf (meta_path path)]
  | .error _ => []

/-- The file, its sidecar and the directories above the file. -/
def put_places (path : Path) : List Place :=
  placeOf path :: placeOf (meta_path path) :: ways path.dropLast

/-- Where a call can write. A put that finds its file writes nothing when
write-once is on. -/
def reach (storage : LocalObjectStorage β) (t : FileTree β) :
    Call β → List Place
  | .put_object args =>
    let path := path_for_key storage (key_of storage args)
    if (lookup t path).isSome ∧ storage.worm_mode then [] else put_places path
  | .delete_object storage_uri => object_places storage storage_uri
  | .apply_legal_hold storage_uri => sidecar_places storage storage_uri
  | .release_legal_hold storage_uri => sidecar_places storage storage_uri
  | .set_retention storage_uri _ _ => sidecar_places storage storage_uri
  | .get_object _ | .is_legal_hold_active _ | .get_retention _ | .is_retention_active _ _ => []

theorem write_object_spares (args : PutArgs β) :
    Keeps (Spares {p | p ∈ put_places path}) (write_object storage now path args) := by
  have hpath : {placeOf path} ⊆ {p | p ∈ put_places path} := by
    rintro p rfl
    exact List.mem_cons_self
  have hmeta : {placeOf (meta_path path)} ⊆ {p | p ∈ put_places path} := by
    rintro p rfl
    exact List.mem_cons_of_mem _ List.mem_cons_self
  have hways : {p | p ∈ ways path.dropLast} ⊆ {p | p ∈ put_places path} :=
    fun p hp => List.mem_cons_of_mem _ (List.mem_cons_of_mem _ hp)
  refine keeps_bind (mkdir_spares.mono fun _ _ h => h.mono hways) fun _ => ?_
  refine keeps_bind ((write_bytes_spares _).mono fun _ _ h => h.mono hpath) fun _ => ?_
  exact keeps_bind (keeps_lift _) fun _ =>
    (write_bytes_spares _).mono fun _ _ h => h.mono hmeta

/-- An operation that first resolves its address, over what it writes. -/
theorem uri_spares {S : Set Place} {f : Path → Act β α}
    (hf : ∀ path, path_for_uri storage storage_uri = .ok path → Keeps (Spares S) (f path)) :
    Keeps (Spares S) (lift (path_for_uri storage storage_uri) >>= f) := by
  rcases hpath : path_for_uri storage storage_uri with e | path
  · exact fun _ => trivial
  · exact hf path hpath

theorem edit_meta_spares (edit : PyDict → PyDict) :
    Keeps (Spares {p | p ∈ sidecar_places storage storage_uri})
      (edit_meta storage storage_uri edit) := by
  refine uri_spares fun path hpath => ?_
  have hsidecar : {placeOf (meta_path path)} ⊆ {p | p ∈ sidecar_places storage storage_uri} := by
    rintro p rfl
    simp [sidecar_places, hpath]
  refine keeps_bind keeps_path_exists fun _ => ?_
  refine keeps_ite ?_ (keeps_pure _)
  refine keeps_bind keeps_read_meta fun _ => ?_
  refine keeps_bind (keeps_lift _) fun _ => keeps_bind ?_ fun _ => keeps_pure _
  exact (write_bytes_spares _).mono fun _ _ h => h.mono hsidecar

theorem delete_object_spares :
    Keeps (Spares {p | p ∈ object_places storage storage_uri})
      (delete_object storage now storage_uri) := by
  refine keeps_bind looks_is_legal_hold_active.keeps fun _ => keeps_ite (keeps_raise _) ?_
  refine keeps_bind looks_is_retention_active.keeps fun _ => keeps_ite (keeps_raise _) ?_
  refine uri_spares fun path hpath => ?_
  have hplaces : object_places storage storage_uri = [placeOf path, placeOf (meta_path path)] := by
    simp [object_places, object_paths, hpath]
  have hfile : {placeOf path} ⊆ {p | p ∈ object_places storage storage_uri} := by
    rintro p rfl
    simp [hplaces]
  have hsidecar : {placeOf (meta_path path)} ⊆ {p | p ∈ object_places storage storage_uri} := by
    rintro p rfl
    simp [hplaces]
  refine keeps_bind keeps_path_exists fun _ => ?_
  refine keeps_ite ?_ (keeps_pure _)
  refine keeps_bind (unlink_path_spares.mono fun _ _ h => h.mono hfile) fun _ => ?_
  refine keeps_bind (keeps_bind keeps_path_exists fun _ => ?_) fun _ => keeps_pure _
  exact keeps_ite (unlink_path_spares.mono fun _ _ h => h.mono hsidecar) (keeps_pure _)

/-- With write-once on, a put to a file that is there writes nothing. -/
theorem put_object_quiet {args : PutArgs β} (now : Time) (hworm : storage.worm_mode = true)
    (hthere : (lookup t (path_for_key storage (key_of storage args))).isSome = true) :
    (put_object storage now args).final t = t := by
  have hresult := path_exists_result storage (path_for_key storage (key_of storage args)) t
  have hfinal := path_exists_quiet storage (path_for_key storage (key_of storage args)) t
  rw [hthere] at hresult
  unfold put_object
  dsimp only
  split at hresult
  · rw [final_bind hresult, hfinal, if_pos ⟨rfl, hworm⟩]
    rfl
  · rw [final_bind_error hresult, hfinal]

theorem put_object_spares (args : PutArgs β) :
    Keeps (Spares {p | p ∈ put_places (path_for_key storage (key_of storage args))})
      (put_object storage now args) := by
  refine keeps_bind keeps_path_exists fun _ => ?_
  exact keeps_ite (keeps_pure _) (keeps_bind (write_object_spares args) fun _ => keeps_pure _)

/-- The call that is made at a time writes in its reach only. -/
theorem call_spares (storage : LocalObjectStorage β) (t : FileTree β) (timed : Timed β) :
    Spares {p | p ∈ reach storage t timed.call} t ((timed.call.act storage timed.now).final t) := by
  have hwrap : ∀ {α : Type} {m : Act β α} {f : α → Reply β} {S : Set Place},
      Keeps (Spares S) m → Spares S t ((wrap f m).final t) := by
    intro α m f S h
    exact (keeps_bind h fun _ => keeps_pure _).final Spares.refl (fun _ _ _ => Spares.trans) t
  obtain ⟨clock, call⟩ := timed
  cases call with
  | put_object args =>
    by_cases hthere : (lookup t (path_for_key storage (key_of storage args))).isSome = true ∧
        storage.worm_mode = true
    · show Spares _ t ((put_object storage clock args >>= fun a => pure (Reply.uri a)).final t)
      rw [final_bind_pure, put_object_quiet _ hthere.2 hthere.1]
      exact .refl t
    · show Spares {p | p ∈ reach storage t (.put_object args)} t _
      rw [reach, if_neg hthere]
      exact hwrap (put_object_spares args)
  | get_object uri => exact hwrap looks_get_object.keeps
  | delete_object uri => exact hwrap delete_object_spares
  | apply_legal_hold uri => exact hwrap (edit_meta_spares _)
  | release_legal_hold uri => exact hwrap (edit_meta_spares _)
  | is_legal_hold_active uri => exact hwrap looks_is_legal_hold_active.keeps
  | set_retention uri mode retain_until => exact hwrap (edit_meta_spares _)
  | get_retention uri => exact hwrap looks_get_retention.keeps
  | is_retention_active uri moment => exact hwrap looks_is_retention_active.keeps

end bid_evaluation.object_frames
