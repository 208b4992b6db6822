-- Trees of files. A program names a file by a path, which can go up by
-- "..", so that two paths can lead to one file. A write touches one place,
-- and a directory that is there stays.
import BidEvaluation.Lib.Dict
import Mathlib.Data.Set.Basic

open dict_lib

namespace file_tree

variable {γ : Type}

/-! ## Places -/

/-- The names from the top of the tree down to a file. -/
abbrev Place := List String

/-- The names as they are written, with ".." for the way up. -/
abbrev Path := List String

def enter (here : Place) (name : String) : Place :=
  if name = ".." then here.dropLast else here ++ [name]

/-- Where a path leads, by its names alone. -/
def placeOf (path : Path) : Place := path.foldl enter []

/-- The path of a second file that stands beside a first one. -/
def beside (suffix : String) (path : Path) : Path :=
  path.dropLast ++ [path.getLast?.getD "" ++ suffix]

inductive Entry (γ : Type) where
  | file (content : γ)
  | directory

abbrev FileTree (γ : Type) := Dict Place (Entry γ)

def isDirectory (t : FileTree γ) (p : Place) : Bool :=
  p = [] || match t.get? p with
    | some .directory => true
    | _ => false

/-- Walk down from a place. Each name but the last has to be a directory. -/
def locateFrom (t : FileTree γ) : Place → Path → Option Place
  | here, [] => some here
  | here, name :: rest =>
    if isDirectory t here then locateFrom t (enter here name) rest else none

def locate (t : FileTree γ) (path : Path) : Option Place := locateFrom t [] path

/-- What stands at the end of a path. -/
def lookup (t : FileTree γ) (path : Path) : Option (Entry γ) :=
  (locate t path).bind fun p => if p = [] then some .directory else t.get? p

/-! ## Writes -/

/-- Write a file, if its directory is there and no directory stands in its
place. -/
def writeFile (t : FileTree γ) (path : Path) (content : γ) : Option (FileTree γ) :=
  (locate t path).bind fun p =>
    if isDirectory t p then none else some (t.set p (.file content))

def unlink (t : FileTree γ) (path : Path) : Option (FileTree γ) :=
  (locate t path).bind fun p =>
    if isDirectory t p then none else (t.get? p).map fun _ => t.erase p

/-- Make the directories of a path that are missing. The flag says whether
all of the path is a directory in the end. -/
def makeDirsFrom (t : FileTree γ) : Place → Path → FileTree γ × Bool
  | here, [] => (t, isDirectory t here)
  | here, name :: rest =>
    if isDirectory t here then
      let next := enter here name
      if next = [] ∨ (t.get? next).isSome then makeDirsFrom t next rest
      else makeDirsFrom (t.set next .directory) next rest
    else (t, false)

def makeDirs (t : FileTree γ) (path : Path) : FileTree γ × Bool := makeDirsFrom t [] path

/-! ## What a write spares -/

/-- All places outside `S` are as they were. No directory goes away. -/
structure Spares (S : Set Place) (t t' : FileTree γ) : Prop where
  same : ∀ p, p ∉ S → t'.get? p = t.get? p
  directories : ∀ p, isDirectory t p = true → isDirectory t' p = true

variable {S S' : Set Place} {t t' t'' : FileTree γ}

theorem Spares.refl (t : FileTree γ) : Spares S t t := ⟨fun _ _ => rfl, fun _ h => h⟩

theorem Spares.trans (h : Spares S t t') (h' : Spares S t' t'') : Spares S t t'' :=
  ⟨fun p hp => (h'.same p hp).trans (h.same p hp),
    fun p hd => h'.directories p (h.directories p hd)⟩

theorem Spares.mono (h : Spares S t t') (hS : S ⊆ S') : Spares S' t t' :=
  ⟨fun p hp => h.same p fun hin => hp (hS hin), h.directories⟩

theorem directory_set {p q : Place} {entry : Entry γ} (hne : q ≠ p) :
    isDirectory (t.set p entry) q = isDirectory t q := by
  unfold isDirectory
  rw [Dict.get?_set_of_ne t entry hne]

/-! ## Where a path leads -/

theorem locateFrom_eq {here p : Place} {path : Path} (h : locateFrom t here path = some p) :
    p = path.foldl enter here := by
  induction path generalizing here with
  | nil => exact (Option.some.inj h).symm
  | cons name rest ih =>
    unfold locateFrom at h
    split at h
    · exact ih h
    · cases h

theorem locate_eq {p : Place} {path : Path} (h : locate t path = some p) : p = placeOf path :=
  locateFrom_eq h

theorem locateFrom_append {here : Place} (path rest : Path) :
    locateFrom t here (path ++ rest) =
      (locateFrom t here path).bind fun p => locateFrom t p rest := by
  induction path generalizing here with
  | nil => rfl
  | cons name path ih =>
    rw [List.cons_append, locateFrom, locateFrom]
    split
    · exact ih
    · rfl

/-- A path that leads somewhere leads there as long as no directory goes. -/
theorem Spares.locateFrom {here p : Place} {path : Path} (h : Spares S t t')
    (hp : locateFrom t here path = some p) : locateFrom t' here path = some p := by
  induction path generalizing here with
  | nil => exact hp
  | cons name rest ih =>
    unfold file_tree.locateFrom at hp ⊢
    split at hp
    · rename_i hd
      rw [if_pos (h.directories here hd)]
      exact ih hp
    · cases hp

theorem Spares.locate {p : Place} {path : Path} (h : Spares S t t')
    (hp : locate t path = some p) : locate t' path = some p := h.locateFrom hp

/-- The last name of a path is looked up in the directory of the others. -/
theorem locate_concat {path : Path} {name : String} {p : Place} :
    locate t (path ++ [name]) = some p ↔
      ∃ q, locate t path = some q ∧ isDirectory t q = true ∧ p = enter q name := by
  unfold locate
  rw [locateFrom_append]
  constructor
  · intro h
    obtain ⟨q, hq, hrest⟩ := Option.bind_eq_some_iff.1 h
    unfold locateFrom at hrest
    split at hrest
    · exact ⟨q, hq, by assumption, (Option.some.inj hrest).symm⟩
    · cases hrest
  · rintro ⟨q, hq, hd, rfl⟩
    rw [hq, Option.bind_some, locateFrom, if_pos hd]
    rfl

/-- What stands beside a file is found where the file is. -/
theorem locate_beside {suffix : String} {path : Path} {p : Place} (h : locate t path = some p) :
    locate t (beside suffix path) = some (placeOf (beside suffix path)) := by
  have hlocated : ∃ q, locate t (beside suffix path) = some q := by
    rcases List.eq_nil_or_concat path with rfl | ⟨parent, name, rfl⟩
    · exact ⟨_, rfl⟩
    · rw [List.concat_eq_append] at h ⊢
      obtain ⟨q, hq, hd, -⟩ := locate_concat.1 h
      unfold beside
      rw [List.dropLast_concat, List.getLast?_concat, Option.getD_some]
      exact ⟨_, locate_concat.2 ⟨q, hq, hd, rfl⟩⟩
  obtain ⟨q, hq⟩ := hlocated
  rw [hq, locate_eq hq]

theorem placeOf_concat (path : Path) (name : String) :
    placeOf (path ++ [name]) = enter (placeOf path) name := by
  unfold placeOf
  rw [List.foldl_append]
  rfl

/-- A long suffix leads to another place. -/
theorem placeOf_beside_ne {suffix : String} (path : Path) (hlong : 2 < suffix.length) :
    placeOf (beside suffix path) ≠ placeOf path := by
  have hup : ∀ name : String, name ++ suffix ≠ ".." := by
    intro name h
    have hlength := congrArg String.length h
    rw [String.length_append] at hlength
    have htwo : "..".length = 2 := rfl
    omega
  intro h
  rcases List.eq_nil_or_concat path with rfl | ⟨parent, name, rfl⟩
  · rw [show beside suffix [] = [] ++ ["" ++ suffix] from rfl, placeOf_concat, enter,
      if_neg (hup "")] at h
    exact absurd h (by simp [placeOf])
  · rw [List.concat_eq_append] at h
    have hbeside : beside suffix (parent ++ [name]) = parent ++ [name ++ suffix] := by
      unfold beside
      rw [List.dropLast_concat, List.getLast?_concat, Option.getD_some]
    rw [hbeside, placeOf_concat, placeOf_concat, enter, if_neg (hup name), enter] at h
    have hlength := congrArg List.length h
    rw [List.length_append, List.length_singleton] at hlength
    split at h
    · rw [if_pos (by assumption), List.length_dropLast] at hlength
      omega
    · have hnames := List.singleton_inj.1 (List.append_cancel_left h)
      have hsize := congrArg String.length hnames
      rw [String.length_append] at hsize
      omega

/-! ## What each write spares -/

theorem spares_set_file {p : Place} {content : γ} (h : isDirectory t p = false) :
    Spares {p} t (t.set p (.file content)) := by
  refine ⟨fun q hq => Dict.get?_set_of_ne t _ hq, fun q hd => ?_⟩
  have hne : q ≠ p := by
    rintro rfl
    rw [h] at hd
    cases hd
  rw [directory_set hne]
  exact hd

theorem spares_erase {p : Place} (h : isDirectory t p = false) : Spares {p} t (t.erase p) := by
  refine ⟨fun q hq => (Dict.get?_erase t p q).trans (if_neg hq), fun q hd => ?_⟩
  have hne : q ≠ p := by
    rintro rfl
    rw [h] at hd
    cases hd
  unfold isDirectory at hd ⊢
  rw [Dict.get?_erase, if_neg hne]
  exact hd

theorem spares_set_directory {p : Place} : Spares {p} t (t.set p .directory) := by
  refine ⟨fun q hq => Dict.get?_set_of_ne t _ hq, fun q hd => ?_⟩
  by_cases heq : q = p
  · simp [isDirectory, heq]
  · rw [directory_set heq]
    exact hd

theorem writeFile_spares {path : Path} {content : γ} (h : writeFile t path content = some t') :
    Spares {placeOf path} t t' := by
  obtain ⟨p, hp, hwrite⟩ := Option.bind_eq_some_iff.1 h
  cases locate_eq hp
  split at hwrite
  · cases hwrite
  · rename_i hd
    cases hwrite
    exact spares_set_file (by simpa using hd)

theorem unlink_spares {path : Path} (h : unlink t path = some t') :
    Spares {placeOf path} t t' := by
  obtain ⟨p, hp, hunlink⟩ := Option.bind_eq_some_iff.1 h
  cases locate_eq hp
  split at hunlink
  · cases hunlink
  · rename_i hd
    obtain ⟨entry, -, rfl⟩ := Option.map_eq_some_iff.1 hunlink
    exact spares_erase (by simpa using hd)

theorem writeFile_get {path : Path} {content : γ} (h : writeFile t path content = some t') :
    t'.get? (placeOf path) = some (.file content) := by
  obtain ⟨p, hp, hwrite⟩ := Option.bind_eq_some_iff.1 h
  cases locate_eq hp
  split at hwrite
  · cases hwrite
  · cases hwrite
    exact Dict.get?_set_self _ _ _

/-- What was written is read back. -/
theorem lookup_written {path : Path} {content : γ} (h : writeFile t path content = some t') :
    lookup t' path = some (.file content) := by
  have hspares := writeFile_spares h
  have hget := writeFile_get h
  obtain ⟨p, hp, hwrite⟩ := Option.bind_eq_some_iff.1 h
  cases locate_eq hp
  have hne : placeOf path ≠ [] := by
    intro hroot
    rw [hroot] at hwrite
    cases hwrite
  rw [lookup, hspares.locate hp, Option.bind_some, if_neg hne, hget]

theorem directory_of_lookup {path : Path} (h : lookup t path = some .directory) :
    isDirectory t (placeOf path) = true := by
  obtain ⟨p, hp, hget⟩ := Option.bind_eq_some_iff.1 h
  cases locate_eq hp
  unfold isDirectory
  split at hget
  · rename_i hroot
    rw [decide_eq_true hroot, Bool.true_or]
  · rw [hget]
    exact Bool.or_true _

theorem lookup_directory {path : Path} {p : Place} (hp : locate t path = some p)
    (hd : isDirectory t p = true) : lookup t path = some .directory := by
  rw [lookup, hp, Option.bind_some]
  split
  · rfl
  · rename_i hne
    unfold isDirectory at hd
    rcases hfound : t.get? p with _ | content | _ <;> simp_all

/-- A file can be written again, and in a directory that is there. -/
theorem writeFile_some {path : Path} {p : Place} {content : γ} (hp : locate t path = some p)
    (hd : isDirectory t p = false) :
    writeFile t path content = some (t.set p (.file content)) := by
  rw [writeFile, hp, Option.bind_some, if_neg (by simp [hd])]

theorem unlink_some {path : Path} {p : Place} {content : γ} (hp : locate t path = some p)
    (hfile : lookup t path = some (.file content)) : unlink t path = some (t.erase p) := by
  rw [lookup, hp, Option.bind_some] at hfile
  split at hfile
  · cases hfile
  · rename_i hne
    rw [unlink, hp, Option.bind_some, if_neg (by simp [isDirectory, hne, hfile]), hfile]
    rfl

/-- What stands at a place that is spared is found there. -/
theorem Spares.lookup {path : Path} {p : Place} (h : Spares S t t') (hp : file_tree.locate t path = some p)
    (hout : p ∉ S) : file_tree.lookup t' path = file_tree.lookup t path := by
  rw [file_tree.lookup, file_tree.lookup, h.locate hp, hp, Option.bind_some, Option.bind_some,
    h.same p hout]

/-- The places on the way along a path. -/
def waysFrom : Place → Path → List Place
  | _, [] => []
  | here, name :: rest => enter here name :: waysFrom (enter here name) rest

def ways (path : Path) : List Place := waysFrom [] path

/-- Who gets to a name has found a directory at each step before. -/
theorem waysFrom_directories {here p : Place} {path : Path} {name : String}
    (h : locateFrom t here (path ++ [name]) = some p) : ∀ q ∈ waysFrom here path, isDirectory t q = true := by
  have hhere : ∀ {here : Place} {path : Path}, locateFrom t here (path ++ [name]) = some p →
      isDirectory t here = true := by
    intro here path h
    cases path with
    | nil =>
      by_contra hno
      rw [List.nil_append, locateFrom, if_neg hno] at h
      cases h
    | cons next rest =>
      by_contra hno
      rw [List.cons_append, locateFrom, if_neg hno] at h
      cases h
  induction path generalizing here with
  | nil =>
    intro q hq
    cases hq
  | cons next rest ih =>
    have hdirectory := hhere h
    rw [List.cons_append, locateFrom, if_pos hdirectory] at h
    exact List.forall_mem_cons.2 ⟨hhere h, ih h⟩

theorem makeDirsFrom_spares (t : FileTree γ) (here : Place) (path : Path) :
    Spares {p | p ∈ waysFrom here path} t (makeDirsFrom t here path).1 := by
  induction path generalizing t here with
  | nil => exact .refl t
  | cons name rest ih =>
    have hrest : {p | p ∈ waysFrom (enter here name) rest} ⊆
        {p | p ∈ waysFrom here (name :: rest)} := fun p hp => List.mem_cons_of_mem _ hp
    have hnext : {enter here name} ⊆ {p | p ∈ waysFrom here (name :: rest)} := by
      rintro p rfl
      exact List.mem_cons_self
    unfold makeDirsFrom
    split
    · dsimp only
      split
      · exact (ih t _).mono hrest
      · exact (spares_set_directory.mono hnext).trans ((ih _ _).mono hrest)
    · exact .refl t

/-- A file that is there after directories are made was there before. -/
theorem makeDirsFrom_files {here p : Place} {path : Path} {content : γ}
    (h : (makeDirsFrom t here path).1.get? p = some (.file content)) :
    t.get? p = some (.file content) := by
  induction path generalizing t here with
  | nil => exact h
  | cons name rest ih =>
    unfold makeDirsFrom at h
    split at h
    · dsimp only at h
      split at h
      · exact ih h
      · have hset := ih h
        rw [Dict.get?_set] at hset
        split at hset
        · cases hset
        · exact hset
    · exact h

/-- A file that is there stays when directories are made. -/
theorem makeDirsFrom_keeps {here p : Place} {path : Path} {content : γ}
    (h : t.get? p = some (.file content)) :
    (makeDirsFrom t here path).1.get? p = some (.file content) := by
  induction path generalizing t here with
  | nil => exact h
  | cons name rest ih =>
    unfold makeDirsFrom
    split
    · dsimp only
      split
      · exact ih h
      · rename_i hmissing
        refine ih ?_
        rw [Dict.get?_set]
        split
        · rename_i heq
          subst heq
          exact absurd (.inr (by rw [h]; rfl)) hmissing
        · exact h
    · exact h

theorem there_of_directory {p : Place} (h : isDirectory t p = true) :
    p = [] ∨ (t.get? p).isSome = true := by
  by_contra hno
  simp only [not_or, Option.not_isSome_iff_eq_none] at hno
  simp [isDirectory, hno.1, hno.2] at h

/-- Where all directories are there, none is made. -/
theorem makeDirsFrom_there {here p : Place} {path : Path}
    (h : locateFrom t here path = some p) (hd : isDirectory t p = true) :
    makeDirsFrom t here path = (t, true) := by
  induction path generalizing here with
  | nil =>
    cases h
    rw [makeDirsFrom, hd]
  | cons name rest ih =>
    unfold locateFrom at h
    split at h
    · rename_i hhere
      have hnext : isDirectory t (enter here name) = true := by
        cases rest with
        | nil =>
          cases h
          exact hd
        | cons next rest =>
          unfold locateFrom at h
          split at h
          · assumption
          · cases h
      rw [makeDirsFrom, if_pos hhere]
      exact (if_pos (there_of_directory hnext)).trans (ih h)
    · cases h

theorem makeDirs_spares (t : FileTree γ) (path : Path) :
    Spares {p | p ∈ ways path} t (makeDirs t path).1 := makeDirsFrom_spares t [] path

/-- No directory is made above what is there. -/
theorem makeDirs_above {path : Path} (h : (lookup t path).isSome = true) :
    (makeDirs t path.dropLast).1 = t := by
  obtain ⟨entry, hentry⟩ := Option.isSome_iff_exists.1 h
  obtain ⟨p, hp, -⟩ := Option.bind_eq_some_iff.1 hentry
  rcases List.eq_nil_or_concat path with rfl | ⟨parent, name, rfl⟩
  · rfl
  · rw [List.concat_eq_append] at hp ⊢
    obtain ⟨q, hq, hd, -⟩ := locate_concat.1 hp
    rw [List.dropLast_concat, makeDirs, makeDirsFrom_there hq hd]

/-! ## Files outside some places -/

/-- All files outside `S` are as they were. No directory goes away. -/
structure KeepsFiles (S : Set Place) (t t' : FileTree γ) : Prop where
  same : ∀ p, p ∉ S → ∀ content, t'.get? p = some (.file content) ↔ t.get? p = some (.file content)
  directories : ∀ p, isDirectory t p = true → isDirectory t' p = true

theorem KeepsFiles.refl (t : FileTree γ) : KeepsFiles S t t := ⟨fun _ _ _ => Iff.rfl, fun _ h => h⟩

theorem KeepsFiles.trans (h : KeepsFiles S t t') (h' : KeepsFiles S t' t'') : KeepsFiles S t t'' :=
  ⟨fun p hp content => (h'.same p hp content).trans (h.same p hp content),
    fun p hd => h'.directories p (h.directories p hd)⟩

theorem KeepsFiles.mono (h : KeepsFiles S t t') (hS : S ⊆ S') : KeepsFiles S' t t' :=
  ⟨fun p hp => h.same p fun hin => hp (hS hin), h.directories⟩

theorem Spares.keeps_files (h : Spares S t t') : KeepsFiles S t t' :=
  ⟨fun p hp content => by rw [h.same p hp], h.directories⟩

theorem makeDirs_keeps_files (t : FileTree γ) (path : Path) : KeepsFiles S t (makeDirs t path).1 :=
  ⟨fun _ _ _ => ⟨makeDirsFrom_files, makeDirsFrom_keeps⟩, (makeDirs_spares t path).directories⟩

/-- A file that a path led to is still found, if its place is none of these. -/
theorem KeepsFiles.lookup_file {path : Path} {content : γ} (h : KeepsFiles S t t')
    (hout : placeOf path ∉ S) (hfile : lookup t path = some (.file content)) :
    lookup t' path = some (.file content) := by
  obtain ⟨p, hp, hget⟩ := Option.bind_eq_some_iff.1 hfile
  have hspares : Spares Set.univ t t' := ⟨fun _ hp => absurd trivial hp, h.directories⟩
  have hp' := hspares.locate hp
  cases locate_eq hp
  split at hget
  · cases hget
  · rename_i hroot
    rw [lookup, hp', Option.bind_some, if_neg hroot]
    exact (h.same _ hout content).2 hget

/-- A path that led to something still does, if a file there has not gone. -/
theorem KeepsFiles.still_there {path : Path} (h : KeepsFiles S t t')
    (hthere : (lookup t path).isSome = true)
    (hfile : ∀ content, t.get? (placeOf path) = some (.file content) →
      (t'.get? (placeOf path)).isSome = true) : (lookup t' path).isSome = true := by
  obtain ⟨entry, hentry⟩ := Option.isSome_iff_exists.1 hthere
  obtain ⟨p, hp, hget⟩ := Option.bind_eq_some_iff.1 hentry
  have hspares : Spares Set.univ t t' := ⟨fun _ hp => absurd trivial hp, h.directories⟩
  have hp' := hspares.locate hp
  cases locate_eq hp
  by_cases hdirectory : isDirectory t (placeOf path) = true
  · rw [lookup_directory hp' (h.directories _ hdirectory)]
    rfl
  · have hroot : placeOf path ≠ [] := by
      intro hroot
      rw [hroot] at hdirectory
      exact hdirectory rfl
    rw [if_neg hroot] at hget
    rw [lookup, hp', Option.bind_some, if_neg hroot]
    cases entry with
    | file content => exact hfile content hget
    | directory =>
      rw [isDirectory, hget] at hdirectory
      simp at hdirectory

/-! ## Below a directory -/

/-- A walk that starts `n` levels below a directory ends below it, and does
not leave it on the way. -/
def StaysBelow : Nat → Path → Prop
  | n, [] => 0 < n
  | n, name :: rest =>
    if name = ".." then 0 < n ∧ StaysBelow (n - 1) rest else StaysBelow (n + 1) rest

instance decidableStaysBelow : (n : Nat) → (path : Path) → Decidable (StaysBelow n path)
  | n, [] => inferInstanceAs (Decidable (0 < n))
  | n, name :: rest =>
    let _ := decidableStaysBelow (n - 1) rest
    let _ := decidableStaysBelow (n + 1) rest
    inferInstanceAs (Decidable (if name = ".." then 0 < n ∧ StaysBelow (n - 1) rest
      else StaysBelow (n + 1) rest))

theorem walk_below {deep : Place} {path : Path} (top : Place) (h : StaysBelow deep.length path) :
    ∃ rest, rest ≠ [] ∧ path.foldl enter (top ++ deep) = top ++ rest := by
  induction path generalizing deep with
  | nil => exact ⟨deep, List.ne_nil_of_length_pos h, rfl⟩
  | cons name path ih =>
    rw [StaysBelow] at h
    rw [List.foldl_cons, enter]
    split at h
    · rename_i hup
      have hdeep := List.ne_nil_of_length_pos h.1
      rw [if_pos hup, List.dropLast_append_of_ne_nil hdeep]
      exact ih (List.length_dropLast ▸ h.2)
    · rename_i hup
      rw [if_neg hup, List.append_assoc]
      exact ih (by rw [List.length_append, List.length_singleton]; exact h)

/-- Any other walk ends at the directory, or goes up from it. -/
theorem walk_out {deep : Place} {path : Path} (top : Place) (h : ¬ StaysBelow deep.length path) :
    path.foldl enter (top ++ deep) = top ∨
      ∃ before after, path = before ++ ".." :: after ∧ before.foldl enter (top ++ deep) = top := by
  induction path generalizing deep with
  | nil =>
    have hempty : deep = [] := List.eq_nil_of_length_eq_zero (by rw [StaysBelow] at h; omega)
    exact .inl (by rw [hempty, List.foldl_nil, List.append_nil])
  | cons name path ih =>
    rw [StaysBelow] at h
    rw [List.foldl_cons]
    have hlater : (∀ here, enter (top ++ deep) name = here →
        path.foldl enter here = top ∨
          ∃ before after, path = before ++ ".." :: after ∧ before.foldl enter here = top) →
        path.foldl enter (enter (top ++ deep) name) = top ∨
          ∃ before after, name :: path = before ++ ".." :: after ∧
            before.foldl enter (top ++ deep) = top := by
      intro hwalk
      rcases hwalk _ rfl with hend | ⟨before, after, rfl, hbefore⟩
      · exact .inl hend
      · exact .inr ⟨name :: before, after, rfl, hbefore⟩
    split at h
    · rename_i hup
      rcases List.eq_nil_or_concat deep with rfl | ⟨parent, last, rfl⟩
      · exact .inr ⟨[], path, by rw [hup]; rfl, by rw [List.foldl_nil, List.append_nil]⟩
      · rw [List.concat_eq_append] at h hlater ⊢
        refine hlater fun here hhere => ?_
        rw [enter, if_pos hup, ← List.append_assoc, List.dropLast_concat] at hhere
        rw [← hhere]
        refine ih fun hstays => h ⟨by rw [List.length_append]; exact Nat.succ_pos _, ?_⟩
        rw [List.length_append]
        exact hstays
    · rename_i hup
      refine hlater fun here hhere => ?_
      rw [enter, if_neg hup, List.append_assoc] at hhere
      rw [← hhere]
      exact ih (by rw [List.length_append, List.length_singleton]; exact h)

/-- No walk gets deeper than it has names. -/
theorem walk_length (here : Place) (path : Path) :
    (path.foldl enter here).length ≤ here.length + path.length := by
  induction path generalizing here with
  | nil => exact Nat.le_refl _
  | cons name path ih =>
    have hstep : (enter here name).length ≤ here.length + 1 := by
      unfold enter
      split
      · rw [List.length_dropLast]
        omega
      · rw [List.length_append, List.length_singleton]
    have hrest := ih (enter here name)
    rw [List.foldl_cons, List.length_cons]
    omega

/-- A name that a walk leaves behind is one it went down by, or was there. -/
theorem walk_name {here : Place} {path : Path} {i : Nat} {name : String}
    (h : (path.foldl enter here)[i]? = some name) :
    (name ∈ path ∧ name ≠ "..") ∨ here[i]? = some name := by
  induction path generalizing here with
  | nil => exact .inr h
  | cons next path ih =>
    rcases ih h with ⟨hin, hne⟩ | hstep
    · exact .inl ⟨List.mem_cons_of_mem _ hin, hne⟩
    · unfold enter at hstep
      split at hstep
      · rw [List.getElem?_dropLast] at hstep
        split at hstep
        · exact .inr hstep
        · cases hstep
      · rename_i hdown
        rw [List.getElem?_append] at hstep
        split at hstep
        · exact .inr hstep
        · rw [List.getElem?_singleton] at hstep
          split at hstep
          · cases hstep
            exact .inl ⟨List.mem_cons_self, hdown⟩
          · cases hstep

end file_tree
