-- The laws of the saved images. With write-once on, the storage keeps the
-- first image of a cleaned name, so two images can get one address.
import BidEvaluation.MineruImages
import BidEvaluation.ReportArchive

open dict_lib file_tree stepwise bid_evaluation.values bid_evaluation.object_storage
  bid_evaluation.object_frames bid_evaluation.worm_laws bid_evaluation.blob_places
  bid_evaluation.blob_flags bid_evaluation.report_archive bid_evaluation.mineru_chunks
  bid_evaluation.mineru_files bid_evaluation.mineru_images
open bid_evaluation.hold_shapes (put_object_address)

namespace bid_evaluation.image_laws

variable {β : Type} {storage : LocalObjectStorage β} {document : ImagesOf} {now : Nat → Time}
  {is_empty : β → Bool} {zip : List (ZipEntry β)} {image other : ZipEntry β}
  {images : List (ZipEntry β)} {t t' : FileTree β}

/-! ## The images of a zip -/

/-- The images with bytes, as they stand in the zip. -/
def image_entries (is_empty : β → Bool) (zip : List (ZipEntry β)) : List (ZipEntry β) :=
  zip.filter fun entry => is_image entry.name && !is_empty entry.bytes

/-- The images with bytes, as they are read by name. -/
def images_read (is_empty : β → Bool) (zip entries : List (ZipEntry β)) : List (ZipEntry β) :=
  ((entries.filter fun entry => is_image entry.name).map fun entry =>
    ⟨entry.name, zip_read zip entry⟩).filter fun image => !is_empty image.bytes

def put_of (document : ImagesOf) (image : ZipEntry β) : PutArgs β :=
  image_args document image.name image.bytes

/-- One put for each image. -/
def put_images (storage : LocalObjectStorage β) (now : Nat → Time) (document : ImagesOf) :
    Nat → List (ZipEntry β) → Act β (List String)
  | _, [] => pure []
  | n, image :: rest => do
    let uri ← put_object storage (now n) (put_of document image)
    let storage_uris ← put_images storage now document (n + 1) rest
    pure (uri :: storage_uris)

theorem save_entries_puts (n : Nat) (entries : List (ZipEntry β)) :
    save_entries storage is_empty now document zip n entries =
      put_images storage now document n (images_read is_empty zip entries) := by
  induction entries generalizing n with
  | nil => rfl
  | cons entry rest ih =>
    unfold save_entries images_read
    by_cases hname : is_image entry.name = true
    · rw [if_pos hname, List.filter_cons_of_pos (by exact hname), List.map_cons]
      by_cases hempty : is_empty (zip_read zip entry) = true
      · rw [if_pos hempty, List.filter_cons_of_neg (by simp [hempty])]
        exact ih n
      · rw [if_neg hempty, List.filter_cons_of_pos (by simp [hempty]), ih]
        rfl
    · rw [if_neg hname, List.filter_cons_of_neg (by exact hname)]
      exact ih n

theorem image_of_read (h : image ∈ images_read is_empty zip zip) : is_image image.name = true := by
  unfold images_read at h
  obtain ⟨entry, hentry, rfl⟩ := List.mem_map.1 (List.mem_filter.1 h).1
  exact (List.mem_filter.1 hentry).2

/-! ## Where the images stand -/

def clean_name (image : ZipEntry β) : String := clean_segment (basename image.name)

def image_path (storage : LocalObjectStorage β) (document : ImagesOf) (image : ZipEntry β) : Path :=
  put_path storage (put_of document image)

def image_uri (storage : LocalObjectStorage β) (document : ImagesOf) (image : ZipEntry β) : String :=
  address storage (put_of document image)

theorem path_of_folder {storage : LocalObjectStorage β} {folder file : String} (hfolder : folder ≠ "")
    (hfile : PlainId file) :
    path_for_key storage (folder ++ "/" ++ file) = path_for_key storage folder ++ [file] := by
  have hhead : (folder ++ "/" ++ file).toList.head? = folder.toList.head? := by
    rw [String.append_assoc, head_append _ _ hfolder]
  unfold path_for_key
  conv_lhs => unfold join
  conv_rhs => unfold join
  rw [hhead, path_names_slash, path_names_plain hfile]
  split
  · rfl
  · rw [List.append_assoc]

/-- Stated for variables, so that no literal is taken apart. -/
theorem append_some {a : String} (b : String) (h : a ≠ "") : a ++ b ≠ "" := by
  intro heq
  have hletters := congrArg String.toList heq
  rw [String.toList_append] at hletters
  exact h (String.ext (List.append_eq_nil_iff.1 hletters).1)

theorem append_seven (key start tenant slash kind id file : String) :
    key ++ slash ++ (start ++ tenant ++ slash ++ kind ++ slash ++ id ++ slash ++ file) =
      key ++ (slash ++ (start ++ tenant ++ slash ++ kind ++ slash ++ id)) ++ slash ++ file := by
  simp only [String.append_assoc]

/-- The key of an object that is neither a document nor a report ends with the
cleaned filename. -/
theorem other_key (storage : LocalObjectStorage β) (tenant_id object_id object_type : String)
    (hdocument : clean_segment object_type ≠ "document") (hreport : clean_segment object_type ≠ "report") :
    ∃ folder, folder ≠ "" ∧ ∀ filename, build_key storage tenant_id object_type object_id filename =
      folder ++ "/" ++ clean_segment filename := by
  have hstart : "tenants/" ≠ "" := by decide
  have hkey : ∀ filename, build_key storage tenant_id object_type object_id filename =
      if storage.key_prefix = "" then
        "tenants/" ++ clean_segment tenant_id ++ "/" ++ clean_segment object_type ++ "/" ++
          clean_segment object_id ++ "/" ++ clean_segment filename
      else
        storage.key_prefix ++ "/" ++ ("tenants/" ++ clean_segment tenant_id ++ "/" ++
          clean_segment object_type ++ "/" ++ clean_segment object_id ++ "/" ++ clean_segment filename) := by
    intro filename
    unfold build_key
    dsimp only
    rw [if_neg hdocument, if_neg hreport]
  simp only [hkey]
  clear hkey
  generalize "tenants/" = start at hstart ⊢
  generalize clean_segment tenant_id = tenant
  generalize clean_segment object_type = kind
  generalize clean_segment object_id = id
  by_cases hnone : storage.key_prefix = ""
  · refine ⟨start ++ tenant ++ "/" ++ kind ++ "/" ++ id, ?_, fun filename => if_pos hnone⟩
    rw [String.append_assoc, String.append_assoc, String.append_assoc, String.append_assoc]
    exact append_some _ hstart
  · refine ⟨storage.key_prefix ++ ("/" ++ (start ++ tenant ++ "/" ++ kind ++ "/" ++ id)),
      append_some _ hnone, fun filename => ?_⟩
    rw [if_neg hnone]
    exact append_seven _ _ _ _ _ _ _

/-- All images of a document stand in one folder, each under its cleaned
name. -/
theorem image_folder (storage : LocalObjectStorage β) (document : ImagesOf) :
    ∃ folder : Path, ∀ image : ZipEntry β, is_image image.name = true →
      image_path storage document image = folder ++ [clean_name image] := by
  have htype : clean_segment "document_parse" = "document_parse" :=
    clean_segment_eq ⟨by decide, by decide⟩
  obtain ⟨folder, hsome, hkey⟩ := other_key storage document.tenant_id (document.document_id ++ "/images")
    "document_parse" (by rw [htype]; decide) (by rw [htype]; decide)
  refine ⟨path_for_key storage folder, fun image himage => ?_⟩
  unfold image_path put_path key_of put_of image_args
  dsimp only
  rw [hkey]
  exact path_of_folder hsome (clean_image_plain (image_name_ends himage))

theorem same_uri (h : clean_name image = clean_name other) :
    image_uri storage document image = image_uri storage document other := by
  unfold clean_name at h
  unfold image_uri address key_of build_key put_of image_args
  dsimp only
  rw [h]

theorem same_path (h : clean_name image = clean_name other) :
    image_path storage document image = image_path storage document other := by
  unfold clean_name at h
  unfold image_path put_path key_of build_key put_of image_args
  dsimp only
  rw [h]

theorem image_place (himage : is_image image.name = true) :
    ∃ above, placeOf (image_path storage document image) = above ++ [clean_name image] ∧
      placeOf (meta_path (image_path storage document image)) =
        above ++ [clean_name image ++ ".meta.json"] := by
  obtain ⟨folder, hfolder⟩ := image_folder storage document
  have hplain : PlainId (clean_name image) := clean_image_plain (image_name_ends himage)
  refine ⟨placeOf folder, ?_, ?_⟩
  · rw [hfolder image himage, placeOf_plain hplain.not_up]
  · rw [hfolder image himage, meta_path_concat, placeOf_plain (meta_name_ne _)]

/-- Stated for variables, so that no name is taken apart. -/
theorem not_put_place {folder : Path} {name name' : String} (hname : PlainId name) (hup : name' ≠ "..")
    (hne : name' ≠ name ∧ name' ≠ name ++ ".meta.json")
    (hway : placeOf (folder ++ [name']) ∉ ways folder) :
    placeOf (folder ++ [name']) ∉ put_places (folder ++ [name]) := by
  unfold put_places
  rw [placeOf_plain hup] at hway ⊢
  rw [List.dropLast_concat, meta_path_concat, placeOf_plain hname.not_up, placeOf_plain (meta_name_ne _),
    List.mem_cons, List.mem_cons]
  rintro (hfile | hmeta | hin)
  · exact hne.1 (List.append_singleton_inj.1 hfile).2
  · exact hne.2 (List.append_singleton_inj.1 hmeta).2
  · exact hway hin

/-- Images with different cleaned names share no place. -/
theorem places_apart (hleads : LeadsBack storage) (himage : is_image image.name = true)
    (hother : is_image other.name = true) (hne : clean_name image ≠ clean_name other) :
    placeOf (image_path storage document image) ∉
      {p | p ∈ object_places storage (image_uri storage document other)} := by
  obtain ⟨above, hplace, -⟩ := @image_place _ storage document image himage
  obtain ⟨above', hfile, hmeta⟩ := @image_place _ storage document other hother
  intro hin
  change _ ∈ object_places storage (address storage (put_of document other)) at hin
  rw [places_of_path (hleads.path _), List.mem_pair] at hin
  rw [hplace] at hin
  rcases hin with hin | hin
  · exact hne (List.append_singleton_inj.1 (hin.trans hfile)).2
  · exact image_ne_sidecar (clean_ends (image_name_ends himage)) _
      (List.append_singleton_inj.1 (hin.trans hmeta)).2

/-! ## One put -/

/-- The way to the folder of the images leads through the image's own place. -/
def OnTheWay (storage : LocalObjectStorage β) (document : ImagesOf) (image : ZipEntry β) : Prop :=
  placeOf (image_path storage document image) ∈ ways (image_path storage document image).dropLast

/-- Nothing stands at the place of the image. -/
def Absent (storage : LocalObjectStorage β) (document : ImagesOf) (t : FileTree β) (image : ZipEntry β) :
    Prop :=
  t.get? (placeOf (image_path storage document image)) = none

/-- The bytes of the image stand at its path. -/
def Holds (storage : LocalObjectStorage β) (document : ImagesOf) (t : FileTree β) (image : ZipEntry β) :
    Prop :=
  lookup t (image_path storage document image) = some (.file image.bytes)

theorem Holds.same_name (h : Holds storage document t image) (hname : clean_name image = clean_name other)
    (hbytes : image.bytes = other.bytes) : Holds storage document t other := by
  unfold Holds at h ⊢
  rw [← same_path hname, ← hbytes]
  exact h

/-- The files after the put of an image. -/
def after_put (storage : LocalObjectStorage β) (document : ImagesOf) (moment : Time) (image : ZipEntry β)
    (t : FileTree β) : FileTree β :=
  (put_object storage moment (put_of document image)).final t

section one_put

variable {moment : Time} {uri : String}

theorem put_keeps_files (hleads : LeadsBack storage) :
    KeepsFiles {p | p ∈ object_places storage (image_uri storage document image)} t
      (after_put storage document moment image t) :=
  (put_object_ends t).keeps_files (hleads.path (put_of document image))

/-- A file of one image stays through the put of another, or of the same. -/
theorem put_keeps (hworm : storage.worm_mode = true) (hleads : LeadsBack storage)
    (himage : is_image image.name = true) (hother : is_image other.name = true) {content : β}
    (h : lookup t (image_path storage document other) = some (.file content)) :
    lookup (after_put storage document moment image t) (image_path storage document other) =
      some (.file content) := by
  by_cases hsame : clean_name image = clean_name other
  · rw [← @same_path _ storage document _ _ hsame] at h
    have hquiet := put_object_quiet moment hworm (Option.isSome_iff_exists.2 ⟨_, h⟩)
    unfold after_put
    rw [hquiet, ← @same_path _ storage document _ _ hsame]
    exact h
  · exact (put_keeps_files hleads).lookup_file (places_apart hleads hother himage (Ne.symm hsame)) h

theorem not_found (himage : is_image image.name = true) (h : Absent storage document t image) :
    lookup t (image_path storage document image) = none := by
  obtain ⟨above, hplace, -⟩ := @image_place _ storage document image himage
  rcases hlocate : locate t (image_path storage document image) with _ | p
  · rw [lookup, hlocate]
    rfl
  · have hp := locate_eq hlocate
    rw [lookup, hlocate, Option.bind_some, hp, if_neg (by simp [hplace])]
    exact h

/-- A put that returns leaves the bytes of its image, unless others were
there. -/
theorem put_holds (himage : is_image image.name = true)
    (hreturns : (put_object storage moment (put_of document image)).result t = .ok uri)
    (h : Absent storage document t image ∨ Holds storage document t image) :
    Holds storage document (after_put storage document moment image t) image := by
  rcases (put_object_ends t).found hreturns with ⟨hthere, hsame⟩ | hwritten
  · rcases h with h | h
    · change (lookup t (image_path storage document image)).isSome = true at hthere
      rw [not_found himage h] at hthere
      cases hthere
    · unfold after_put
      rw [hsame]
      exact h
  · exact hwritten

theorem put_absent (himage : is_image image.name = true) (hother : is_image other.name = true)
    (hne : clean_name image ≠ clean_name other) (hway : ¬OnTheWay storage document other)
    (h : Absent storage document t other) :
    Absent storage document (after_put storage document moment image t) other := by
  have hspares : Spares {p | p ∈ put_places (image_path storage document image)} t
      (after_put storage document moment image t) :=
    (put_object_spares (put_of document image)).final Spares.refl (fun _ _ _ => Spares.trans) t
  obtain ⟨folder, hfolder⟩ := image_folder storage document
  have hplain : PlainId (clean_name image) := clean_image_plain (image_name_ends himage)
  have hplain' : PlainId (clean_name other) := clean_image_plain (image_name_ends hother)
  have hsidecar := image_ne_sidecar (clean_ends (image_name_ends hother))
  unfold Absent at h ⊢
  unfold OnTheWay at hway
  rw [hfolder image himage] at hspares
  rw [hfolder other hother] at h hway ⊢
  rw [List.dropLast_concat] at hway
  rw [← h]
  refine hspares.same _ (not_put_place hplain hplain'.not_up ?_ hway)
  exact ⟨hne.symm, hsidecar _⟩

/-- The put of an image that was not there makes the whole way to it. -/
theorem put_makes_way (himage : is_image image.name = true)
    (hreturns : (put_object storage moment (put_of document image)).result t = .ok uri)
    (h : Absent storage document t image) :
    ∀ p ∈ ways (image_path storage document image).dropLast,
      isDirectory (after_put storage document moment image t) p = true := by
  have hholds := put_holds himage hreturns (Or.inl h)
  obtain ⟨folder, hfolder⟩ := image_folder storage document
  unfold Holds at hholds
  rw [hfolder image himage] at hholds ⊢
  rw [List.dropLast_concat]
  obtain ⟨p, hp, -⟩ := Option.bind_eq_some_iff.1 hholds
  exact waysFrom_directories hp

end one_put

/-! ## All puts -/

section all_puts

variable {n : Nat} {storage_uris : List String}

theorem put_images_cons
    (h : (put_images storage now document n (image :: images)).result t = .ok storage_uris) :
    (put_object storage (now n) (put_of document image)).result t = .ok (image_uri storage document image) ∧
      ∃ rest, storage_uris = image_uri storage document image :: rest ∧
        (put_images storage now document (n + 1) images).result
          (after_put storage document (now n) image t) = .ok rest ∧
        (put_images storage now document n (image :: images)).final t =
          (put_images storage now document (n + 1) images).final
            (after_put storage document (now n) image t) := by
  have hstep : put_images storage now document n (image :: images) =
      (put_object storage (now n) (put_of document image) >>= fun uri =>
        put_images storage now document (n + 1) images >>= fun storage_uris =>
          pure (uri :: storage_uris)) := rfl
  rw [hstep] at h ⊢
  rcases hput : (put_object storage (now n) (put_of document image)).result t with e | uri
  · rw [result_bind_error hput] at h
    cases h
  · rw [result_bind hput] at h
    rw [final_bind hput]
    cases put_object_address hput
    change (put_images storage now document (n + 1) images >>= fun rest =>
      pure (image_uri storage document image :: rest)).result
        (after_put storage document (now n) image t) = _ at h
    rcases hrest : (put_images storage now document (n + 1) images).result
      (after_put storage document (now n) image t) with e | rest
    · rw [result_bind_error hrest] at h
      cases h
    · rw [result_bind hrest] at h
      cases h
      refine ⟨rfl, rest, rfl, rfl, ?_⟩
      exact final_bind_pure _

/-- A file of an image stays through all puts. -/
theorem put_images_keeps (hworm : storage.worm_mode = true) (hleads : LeadsBack storage)
    (himages : ∀ image ∈ images, is_image image.name = true) (hother : is_image other.name = true)
    (hreturns : (put_images storage now document n images).result t = .ok storage_uris) {content : β}
    (h : lookup t (image_path storage document other) = some (.file content)) :
    lookup ((put_images storage now document n images).final t) (image_path storage document other) =
      some (.file content) := by
  induction images generalizing n t storage_uris with
  | nil => exact h
  | cons image images ih =>
    obtain ⟨-, rest, -, hrest, hfinal⟩ := put_images_cons hreturns
    obtain ⟨himage, himages⟩ := List.forall_mem_cons.1 himages
    rw [hfinal]
    exact ih himages hrest (put_keeps hworm hleads himage hother h)

/-- A directory stays through all puts. -/
theorem put_images_directories
    (hreturns : (put_images storage now document n images).result t = .ok storage_uris) {p : Place}
    (h : isDirectory t p = true) :
    isDirectory ((put_images storage now document n images).final t) p = true := by
  induction images generalizing n t storage_uris with
  | nil => exact h
  | cons image images ih =>
    obtain ⟨-, rest, -, hrest, hfinal⟩ := put_images_cons hreturns
    have hspares : Spares {p | p ∈ put_places (image_path storage document image)} t
        (after_put storage document (now n) image t) :=
      (put_object_spares (put_of document image)).final Spares.refl (fun _ _ _ => Spares.trans) t
    rw [hfinal]
    exact ih hrest (hspares.directories p h)

theorem put_images_uris
    (hreturns : (put_images storage now document n images).result t = .ok storage_uris) :
    storage_uris = images.map (image_uri storage document) ∧
      ∀ image ∈ images, fits storage (image_path storage document image) = true := by
  induction images generalizing n t storage_uris with
  | nil =>
    cases hreturns
    exact ⟨rfl, fun _ h => absurd h List.not_mem_nil⟩
  | cons image images ih =>
    obtain ⟨hput, rest, rfl, hrest, -⟩ := put_images_cons hreturns
    obtain ⟨huris, hfits⟩ := ih hrest
    exact ⟨by rw [huris, List.map_cons], List.forall_mem_cons.2 ⟨put_object_fits hput, hfits⟩⟩

/-- Images of one cleaned name have the same bytes. -/
def SameBytes (images : List (ZipEntry β)) : Prop :=
  ∀ image ∈ images, ∀ other ∈ images, clean_name image = clean_name other → image.bytes = other.bytes

/-- When all puts return, each image holds its bytes. -/
theorem put_images_holds (hworm : storage.worm_mode = true) (hleads : LeadsBack storage)
    (himages : ∀ image ∈ images, is_image image.name = true) (hsame : SameBytes images)
    (hway : ∀ image ∈ images, ¬OnTheWay storage document image)
    (hstart : ∀ image ∈ images, Absent storage document t image ∨ Holds storage document t image)
    (hreturns : (put_images storage now document n images).result t = .ok storage_uris) :
    ∀ image ∈ images, Holds storage document ((put_images storage now document n images).final t) image := by
  induction images generalizing n t storage_uris with
  | nil => exact fun _ h => absurd h List.not_mem_nil
  | cons image images ih =>
    obtain ⟨hput, rest, -, hrest, hfinal⟩ := put_images_cons hreturns
    obtain ⟨himage, himages'⟩ := List.forall_mem_cons.1 himages
    have hfirst : Holds storage document (after_put storage document (now n) image t) image :=
      put_holds himage hput (hstart image List.mem_cons_self)
    rw [hfinal]
    refine List.forall_mem_cons.2 ⟨?_, ?_⟩
    · exact put_images_keeps hworm hleads himages' himage hrest hfirst
    · apply ih himages' ?_ ?_ ?_ hrest
      · intro a ha b hb
        exact hsame a (List.mem_cons_of_mem _ ha) b (List.mem_cons_of_mem _ hb)
      · intro other hother
        exact hway other (List.mem_cons_of_mem _ hother)
      · intro other hother
        have hmem := List.mem_cons_of_mem image hother
        by_cases hname : clean_name image = clean_name other
        · right
          exact hfirst.same_name hname (hsame image List.mem_cons_self other hmem hname)
        · rcases hstart other hmem with h | h
          · left
            exact put_absent himage (himages' other hother) hname (hway other hmem) h
          · right
            exact put_keeps hworm hleads himage (himages' other hother) h

/-- Where an image stands on the way to the folder, its place is a directory
after the puts. -/
theorem put_images_way (himages : ∀ image ∈ images, is_image image.name = true)
    (hstart : ∀ image ∈ images, Absent storage document t image)
    (hreturns : (put_images storage now document n images).result t = .ok storage_uris)
    (hother : other ∈ images) (hway : OnTheWay storage document other) :
    isDirectory ((put_images storage now document n images).final t)
      (placeOf (image_path storage document other)) = true := by
  rcases images with _ | ⟨image, images⟩
  · cases hother
  · obtain ⟨hput, rest, -, hrest, hfinal⟩ := put_images_cons hreturns
    have himage := himages image List.mem_cons_self
    obtain ⟨folder, hfolder⟩ := image_folder storage document
    rw [hfinal]
    apply put_images_directories hrest
    apply put_makes_way himage hput (hstart image List.mem_cons_self)
    unfold OnTheWay at hway
    rw [hfolder other (himages other hother), List.dropLast_concat] at hway
    rw [hfolder image himage, hfolder other (himages other hother), List.dropLast_concat]
    exact hway

end all_puts

/-! ## Reading back -/

/-- The address of an image is read back with some bytes exactly when they
stand at its path. -/
theorem stored_image (hleads : LeadsBack storage)
    (hfits : fits storage (image_path storage document image) = true) {content : β} :
    (get_object storage (image_uri storage document image)).result t = .ok content ↔
      lookup t (image_path storage document image) = some (.file content) := by
  have hstored : Stored storage (image_uri storage document image) content t ↔ _ :=
    stored_iff (hleads.path (put_of document image))
  unfold Stored at hstored
  rw [hstored]
  exact and_iff_right hfits

/-- The addresses give the bytes of the images in the order of the zip, and
images with different bytes have no address in common. -/
structure ReadsBack (storage : LocalObjectStorage β) (is_empty : β → Bool) (zip : List (ZipEntry β))
    (storage_uris : List String) (t : FileTree β) : Prop where
  reads : storage_uris.map (fun storage_uri => (get_object storage storage_uri).result t) =
    (image_entries is_empty zip).map fun image => .ok image.bytes
  unshared : ∀ p ∈ (images_read is_empty zip zip).zip storage_uris,
    ∀ q ∈ (images_read is_empty zip zip).zip storage_uris, p.2 = q.2 → p.1.bytes = q.1.bytes

/-- What lets all images be read back. -/
structure Restorable (storage : LocalObjectStorage β) (is_empty : β → Bool) (document : ImagesOf)
    (zip : List (ZipEntry β)) : Prop where
  by_name : (images_read is_empty zip zip).map ZipEntry.bytes =
    (image_entries is_empty zip).map ZipEntry.bytes
  same_bytes : SameBytes (images_read is_empty zip zip)
  off_the_way : ∀ image ∈ images_read is_empty zip zip, ¬OnTheWay storage document image

theorem mem_zip_map {α γ : Type} {f : α → γ} {l : List α} {p : α × γ} :
    p ∈ l.zip (l.map f) ↔ p.1 ∈ l ∧ p.2 = f p.1 := by
  rw [← List.map_prod_left_eq_zip, List.mem_map]
  constructor
  · rintro ⟨a, ha, rfl⟩
    exact ⟨ha, rfl⟩
  · rintro ⟨ha, hp⟩
    exact ⟨p.1, ha, Prod.ext rfl hp.symm⟩

section reading

variable {storage_uris : List String} (hworm : storage.worm_mode = true) (hleads : LeadsBack storage)
  (hfresh : ∀ image ∈ images_read is_empty zip zip, Absent storage document t image)
  (hreturns : (save_images storage is_empty now document zip).result t = .ok storage_uris)

include hworm hleads hfresh hreturns

/-- On a fresh document the images are read back exactly when the entries of
the zip are told apart by name, no two images of one cleaned name differ, and
none is in the way of its own folder. -/
theorem saved_images_read_back_iff :
    ReadsBack storage is_empty zip storage_uris
        ((save_images storage is_empty now document zip).final t) ↔
      Restorable storage is_empty document zip := by
  unfold save_images at hreturns ⊢
  rw [save_entries_puts] at hreturns ⊢
  have himages : ∀ image ∈ images_read is_empty zip zip, is_image image.name = true :=
    fun image h => image_of_read h
  obtain ⟨huris, hfits⟩ := put_images_uris hreturns
  subst huris
  have hreads : SameBytes (images_read is_empty zip zip) →
      (∀ image ∈ images_read is_empty zip zip, ¬OnTheWay storage document image) →
      ((images_read is_empty zip zip).map (image_uri storage document)).map (fun storage_uri =>
        (get_object storage storage_uri).result
          ((put_images storage now document 0 (images_read is_empty zip zip)).final t)) =
      ((images_read is_empty zip zip).map ZipEntry.bytes).map Except.ok := by
    intro hsame hway
    rw [List.map_map, List.map_map]
    apply List.map_congr_left
    intro image himage
    apply (stored_image hleads (hfits image himage)).2
    exact put_images_holds hworm hleads himages hsame hway (fun image h => .inl (hfresh image h))
      hreturns image himage
  have hentries : (image_entries is_empty zip).map (fun image => (Except.ok image.bytes : Except PyErr β)) =
      ((image_entries is_empty zip).map ZipEntry.bytes).map Except.ok := by
    rw [List.map_map]
    rfl
  constructor
  · intro h
    have hsame : SameBytes (images_read is_empty zip zip) := by
      intro image himage other hother hname
      exact h.unshared (image, _) (mem_zip_map.2 ⟨himage, rfl⟩) (other, _) (mem_zip_map.2 ⟨hother, rfl⟩)
        (same_uri hname)
    have hway : ∀ image ∈ images_read is_empty zip zip, ¬OnTheWay storage document image := by
      intro image himage hon
      have hdirectory := put_images_way himages hfresh hreturns himage hon
      have hmem := List.mem_map_of_mem (f := fun storage_uri => (get_object storage storage_uri).result
        ((put_images storage now document 0 (images_read is_empty zip zip)).final t))
        (List.mem_map_of_mem (f := image_uri storage document) himage)
      rw [h.reads] at hmem
      obtain ⟨entry, -, hread⟩ := List.mem_map.1 hmem
      have hfile := (stored_image hleads (hfits image himage)).1 hread.symm
      rw [isDirectory, lookup_file hfile] at hdirectory
      obtain ⟨above, hplace, -⟩ := @image_place _ storage document image (himages image himage)
      simp [hplace] at hdirectory
    refine ⟨?_, hsame, hway⟩
    have hboth := (hreads hsame hway).symm.trans (h.reads.trans hentries)
    exact List.map_injective_iff.2 (fun _ _ heq => Except.ok.inj heq) hboth
  · rintro ⟨hname, hsame, hway⟩
    refine ⟨?_, ?_⟩
    · rw [hentries, ← hname]
      exact hreads hsame hway
    · intro p hp q hq heq
      obtain ⟨hp, huri⟩ := mem_zip_map.1 hp
      obtain ⟨hq, huri'⟩ := mem_zip_map.1 hq
      have hp' := put_images_holds hworm hleads himages hsame hway (fun image h => .inl (hfresh image h))
        hreturns p.1 hp
      have hq' := put_images_holds hworm hleads himages hsame hway (fun image h => .inl (hfresh image h))
        hreturns q.1 hq
      have hp' := (stored_image hleads (hfits p.1 hp)).2 hp'
      have hq' := (stored_image hleads (hfits q.1 hq)).2 hq'
      rw [← huri, heq, huri'] at hp'
      exact Except.ok.inj (hp'.symm.trans hq')

end reading

def no_text : FileText → Bool
  | .text s => s = ""
  | .json _ => false

def of_document : ImagesOf := ⟨"tenant", "doc_a"⟩

def image_named (name content : String) : ZipEntry FileText := ⟨name, .text content⟩

/-- Two images from two directories beside a list. -/
def plain_zip : List (ZipEntry FileText) :=
  [image_named "doc_content_list.json" "[]", image_named "images/a.png" "first",
    image_named "parts/images/b.PNG" "second", image_named "images/empty.png" ""]

def folder_uri : String := "object://local/bea/tenants/tenant/document_parse/doc_a_images/"

theorem plain_leads : LeadsBack worm_storage := by
  intro name rest _ hbucket
  have hslash : '/' ∈ worm_storage.bucket.toList := by simp [hbucket]
  exact absurd hslash (by decide)

theorem plain_names : is_image "doc_content_list.json" = false ∧ is_image "images/a.png" = true ∧
    is_image "parts/images/b.PNG" = true ∧ is_image "images/empty.png" = true := by decide +kernel

theorem plain_entries : image_entries no_text plain_zip =
    [image_named "images/a.png" "first", image_named "parts/images/b.PNG" "second"] := by
  obtain ⟨hlist, ha, hb, hempty⟩ := plain_names
  simp [image_entries, plain_zip, image_named, no_text, hlist, ha, hb, hempty]

theorem plain_read : images_read no_text plain_zip plain_zip =
    [image_named "images/a.png" "first", image_named "parts/images/b.PNG" "second"] := by
  obtain ⟨hlist, ha, hb, hempty⟩ := plain_names
  simp [images_read, zip_read, plain_zip, image_named, no_text, hlist, ha, hb, hempty]

theorem two_images_read_back :
    ReadsBack worm_storage no_text plain_zip [folder_uri ++ "a.png", folder_uri ++ "b.PNG"]
      ((save_images worm_storage no_text Int.ofNat of_document plain_zip).final Dict.empty) := by
  have hfresh : ∀ image ∈ images_read no_text plain_zip plain_zip,
      Absent worm_storage of_document Dict.empty image := fun _ _ => rfl
  refine (saved_images_read_back_iff rfl plain_leads hfresh ?_).2 ?_
  · exact ok_of_toOption (by decide +kernel)
  · have hname : clean_name (image_named "images/a.png" "first") ≠
        clean_name (image_named "parts/images/b.PNG" "second") := by decide +kernel
    refine ⟨?_, ?_, ?_⟩
    · rw [plain_read, plain_entries]
    · rw [plain_read]
      unfold SameBytes
      simp [hname, hname.symm]
    · rw [plain_read]
      unfold OnTheWay
      simp only [List.forall_mem_cons, List.not_mem_nil, false_implies, implies_true, and_true]
      decide +kernel

/-- The names differ in a space and an underscore. -/
def spaced_zip : List (ZipEntry FileText) :=
  [image_named "images/a b.png" "first", image_named "images/a_b.png" "second"]

/-- Both names are cleaned to one. The second image is not kept, and its
address gives the first. -/
theorem spaced_image_is_lost :
    is_image "images/a b.png" = true ∧ is_image "images/a_b.png" = true ∧
      ((save_images worm_storage no_text Int.ofNat of_document spaced_zip).result Dict.empty).toOption =
        some [folder_uri ++ "a_b.png", folder_uri ++ "a_b.png"] ∧
      ¬ReadsBack worm_storage no_text spaced_zip [folder_uri ++ "a_b.png", folder_uri ++ "a_b.png"]
        ((save_images worm_storage no_text Int.ofNat of_document spaced_zip).final Dict.empty) := by
  have hnames : is_image "images/a b.png" = true ∧ is_image "images/a_b.png" = true := by decide +kernel
  refine ⟨hnames.1, hnames.2, by decide +kernel, fun h => ?_⟩
  have hread : text_of ((get_object worm_storage (folder_uri ++ "a_b.png")).result
      ((save_images worm_storage no_text Int.ofNat of_document spaced_zip).final Dict.empty)) =
        some "first" := by decide +kernel
  have hentries : image_entries no_text spaced_zip = spaced_zip := by
    simp [image_entries, spaced_zip, image_named, no_text, hnames.1, hnames.2]
  have hreads := h.reads
  rw [hentries] at hreads
  simp only [List.map_cons, List.map_nil, spaced_zip, image_named, List.cons.injEq] at hreads
  unfold spaced_zip image_named at hread
  rw [hreads.2.1] at hread
  exact absurd hread (by decide)

end bid_evaluation.image_laws
