-- The law of the S3 backend over runs. With write-once on, and while what is
-- asked of the service is answered, an object under a hold or a retention
-- stays as it is until it is released on purpose, whatever writes fail. A
-- question that fails is read as no protection.
import BidEvaluation.S3Storage
import BidEvaluation.WormLaws

open dict_lib stepwise bid_evaluation.values bid_evaluation.s3_storage
open bid_evaluation.object_storage (Time PutArgs Call Timed parse_storage_uri split_twice)
open bid_evaluation.worm_laws (takeWhile_slash toList_four)

namespace bid_evaluation.s3_laws

variable {α α' β : Type} {storage : S3ObjectStorage} {slot : Slot}

/-! ## What a program keeps of the objects -/

/-- From objects with `J` on, every write leaves objects with `J`. -/
def Guards (J : Objects β → Prop) (m : S3Act β α) : Prop :=
  ∀ s, J s.objects → Meets (fun _ t => J t.objects) m s (fun _ t => J t.objects)

section guards

variable {J : Objects β → Prop} {m : S3Act β α}

theorem guards_pure (a : α) : Guards J (pure a : S3Act β α) := fun _ h => meets_pure.2 h

theorem guards_raise (e : PyErr) : Guards J (raise e : S3Act β α) := fun _ h => meets_raise.2 h

theorem guards_lift (r : Except PyErr α) : Guards J (lift r : S3Act β α) :=
  fun _ h => meets_lift.2 h

theorem guards_bind {f : α → S3Act β α'} (h : Guards J m) (hf : ∀ a, Guards J (f a)) :
    Guards J (m >>= f) := fun s hs =>
  (h s hs).bind (fun a t ht => hf a t ht) fun _ _ ht => ht

theorem guards_catching {handler : PyErr → S3Act β α} (h : Guards J m)
    (hh : ∀ e, Guards J (handler e)) : Guards J (catching m handler) := fun s hs =>
  (h s hs).catching (fun _ _ ht => ht) fun e t ht => hh e t ht

theorem guards_drop (h : Guards J m) : Guards J (drop m) := guards_bind h fun _ => guards_pure ()

theorem guards_whether {m : S3Act β Unit} (h : Guards J m) : Guards J (whether m) :=
  guards_catching (guards_bind h fun _ => guards_pure true) fun _ => guards_pure false

theorem whether_meets {m : S3Act β Unit} {R : Service β → Service β → Prop} {s : Service β}
    (h : Meets R m s fun r t => r = .ok () ∧ J t.objects) :
    Meets R (whether m) s fun r t => r = .ok true ∧ J t.objects :=
  Meets.catching (P := fun r t => r = .ok true ∧ J t.objects)
    (h.bind (fun _ _ ht => meets_pure.2 ⟨rfl, ht.2⟩) fun _ _ ht => by cases ht.1)
    (fun _ _ ht => ht) fun _ _ ht => by cases ht.1

theorem guards_call {fate : Nat → Fate} {op : Objects β → Except PyErr (α × Objects β)}
    (hop : ∀ objects a objects', J objects → op objects = .ok (a, objects') → J objects') :
    Guards J (call fate op) := by
  intro s hs
  have hafter : J (objects_after (fate s.calls) (op s.objects) s.objects) := by
    unfold objects_after
    split
    · exact hs
    · rename_i hdone _
      exact hop _ _ _ hs hdone
    · exact hs
  exact meets_bind.2 (meets_read.2 (then_ok.2 (meets_bind.2 (meets_write.2 ⟨hafter,
    then_ok.2 (meets_lift.2 hafter)⟩))))

theorem guards_reading (f : S3Object β → Except PyErr α) : Guards J (reading storage slot f) := by
  refine guards_call fun objects a objects' hobjects hok => ?_
  split at hok
  · cases hok
  · rename_i object _
    cases hf : f object with
    | error e =>
      rw [hf] at hok
      cases hok
    | ok b =>
      rw [hf] at hok
      cases hok
      exact hobjects

/-- What is asked about an object that is there is answered, and changes nothing. -/
theorem reading.meets (hreads : ∀ n, storage.read_fate n = .answered)
    (f : S3Object β → Except PyErr α) {s : Service β} {object : S3Object β}
    (hget : s.objects.get? slot = some object) (hs : J s.objects) :
    Meets (fun _ t => J t.objects) (reading storage slot f) s
      fun r t => r = f object ∧ J t.objects := by
  refine ((guards_reading f s hs).and ⟨(guards_reading f s hs).1, ?_⟩).post fun r t h => ⟨h.2, h.1⟩
  show answer_of (storage.read_fate s.calls) _ = f object
  dsimp only
  rw [hreads, hget]
  unfold answer_of
  dsimp only
  cases f object <;> rfl

end guards

/-! ## Shields -/

/-- What protects an object: a hold, or a retention up to a time. -/
inductive Shield where
  | hold
  | retention (retain_until : Time)

def Shield.On (object : S3Object β) : Shield → Prop
  | .hold => object.legal_hold = some "ON"
  | .retention retain_until => object.retention.map S3Retention.retain_until = some retain_until

/-- The object is there with its body, under the shield. -/
def Shielded (shield : Shield) (slot : Slot) (body : β) (objects : Objects β) : Prop :=
  ∃ object, objects.get? slot = some object ∧ object.body = body ∧ shield.On object

/-- What can lift a shield: a release of the hold, another retention, or a
delete once the retention is over. -/
def Lifts (slot : Slot) (timed : Timed β) : Shield → Prop
  | .hold => ∃ storage_uri, timed.call = .release_legal_hold storage_uri ∧
      slot_of_uri storage_uri = .ok slot
  | .retention retain_until => ∃ storage_uri, slot_of_uri storage_uri = .ok slot ∧
      ((∃ mode until_time, timed.call = .set_retention storage_uri mode until_time) ∨
        timed.call = .delete_object storage_uri ∧ retain_until ≤ timed.now)

variable {shield : Shield} {body : β}

theorem Shielded.set_other {objects : Objects β} (h : Shielded shield slot body objects)
    {other : Slot} (hne : other ≠ slot) (object : S3Object β) :
    Shielded shield slot body (objects.set other object) := by
  obtain ⟨found, hget, hbody, hon⟩ := h
  exact ⟨found, by rw [Dict.get?_set_of_ne _ _ (Ne.symm hne), hget], hbody, hon⟩

/-- A change that keeps bodies, and keeps the shield of the slot. -/
theorem guards_changing {other : Slot} {f : S3Object β → S3Object β}
    (hbody : ∀ object, (f object).body = object.body)
    (hshield : other = slot → ∀ object, shield.On object → shield.On (f object)) :
    Guards (Shielded shield slot body) (changing storage other f) := by
  refine guards_call fun objects a objects' hobjects hok => ?_
  split at hok
  · cases hok
  · rename_i object hget
    cases hok
    by_cases heq : other = slot
    · obtain ⟨found, hfound, hsame, hon⟩ := hobjects
      rw [heq] at hget ⊢
      rw [hget] at hfound
      cases hfound
      exact ⟨f object, Dict.get?_set_self _ _ _, (hbody object).trans hsame, hshield heq object hon⟩
    · exact hobjects.set_other heq _

theorem guards_delete {other : Slot} (hne : other ≠ slot) :
    Guards (Shielded shield slot body) (client_delete_object storage other) := by
  refine guards_call fun objects a objects' hobjects hok => ?_
  cases hok
  obtain ⟨found, hget, hbody, hon⟩ := hobjects
  exact ⟨found, by rw [Dict.get?_erase, if_neg (Ne.symm hne), hget], hbody, hon⟩

theorem guards_put {other : Slot} (hne : other ≠ slot) (content : β) (content_type : String) :
    Guards (Shielded shield slot body)
      (client_put_object storage other content content_type) := by
  refine guards_call fun objects a objects' hobjects hok => ?_
  cases hok
  exact hobjects.set_other hne _

/-! ## Addresses -/

/-- The address of a key is read as the slot of the key. -/
theorem slot_of_key (hbucket : '/' ∉ storage.bucket.toList) (key : String) :
    slot_of_uri (uri_for_key storage key) = .ok (storage.bucket.toList, key.toList) := by
  have hraw : (uri_for_key storage key).toList = "object://".toList ++
      ("s3".toList ++ '/' :: (storage.bucket.toList ++ '/' :: key.toList)) := by
    have htexts : (uri_for_key storage key).toList = "object://s3/".toList ++
        storage.bucket.toList ++ "/".toList ++ key.toList := toList_four _ _ _ _
    have hstart : "object://s3/".toList = "object://".toList ++ ("s3".toList ++ ['/']) := by
      decide
    have hslash : "/".toList = ['/'] := by decide
    rw [htexts, hstart, hslash]
    generalize "object://".toList = scheme
    generalize "s3".toList = backend
    simp
  have hbackend := takeWhile_slash (storage.bucket.toList ++ '/' :: key.toList)
    (show '/' ∉ "s3".toList by decide)
  have hname := takeWhile_slash key.toList hbucket
  have hscheme : "object://".toList.isPrefixOf (uri_for_key storage key).toList = true := by
    rw [hraw, List.isPrefixOf_iff_prefix]
    exact List.prefix_append _ _
  have htwice : split_twice ("s3".toList ++ '/' :: (storage.bucket.toList ++ '/' :: key.toList)) =
      some ⟨"s3".toList, storage.bucket.toList, key.toList⟩ := by
    unfold split_twice
    rw [hbackend.1, hbackend.2]
    dsimp only
    rw [hname.1, hname.2]
  unfold slot_of_uri parse_storage_uri
  dsimp only
  rw [if_pos hscheme, hraw, List.drop_left, htwice]
  rfl

theorem guards_at {J : Objects β → Prop} {storage_uri : String} {f : Slot → S3Act β α}
    (h : ∀ other, slot_of_uri storage_uri = .ok other → Guards J (f other)) :
    Guards J (lift (slot_of_uri storage_uri) >>= f) := by
  cases hslot : slot_of_uri storage_uri with
  | error e => exact guards_lift (.error e)
  | ok other => exact h other hslot

/-! ## The operations -/

theorem guards_apply (storage_uri : String) :
    Guards (Shielded shield slot body) (apply_legal_hold storage storage_uri) := by
  refine guards_at fun other _ => guards_whether (guards_changing (fun _ => rfl)
    fun _ object hon => ?_)
  cases shield with
  | hold => rfl
  | retention retain_until => exact hon

theorem guards_release {storage_uri : String}
    (hspares : shield = .hold → slot_of_uri storage_uri ≠ .ok slot) :
    Guards (Shielded shield slot body) (release_legal_hold storage storage_uri) := by
  refine guards_at fun other hslot => guards_whether (guards_changing (fun _ => rfl)
    fun heq object hon => ?_)
  cases shield with
  | hold => exact absurd (heq ▸ hslot) (hspares rfl)
  | retention retain_until => exact hon

theorem guards_set_retention {storage_uri : String} (mode : String) (until_time : Time)
    (hspares : ∀ retain_until, shield = .retention retain_until →
      slot_of_uri storage_uri ≠ .ok slot) :
    Guards (Shielded shield slot body) (set_retention storage storage_uri mode until_time) := by
  refine guards_at fun other hslot => guards_whether (guards_changing (fun _ => rfl)
    fun heq object hon => ?_)
  cases shield with
  | hold => exact hon
  | retention retain_until => exact absurd (heq ▸ hslot) (hspares retain_until rfl)

theorem guards_get_object (storage_uri : String) :
    Guards (Shielded shield slot body) (get_object storage storage_uri) :=
  guards_at fun _ _ => guards_reading _

theorem guards_is_held (storage_uri : String) :
    Guards (Shielded shield slot body) (is_legal_hold_active storage storage_uri) :=
  guards_at fun _ _ => guards_catching (guards_bind (guards_reading _) fun _ => guards_pure _)
    fun _ => guards_pure _

theorem guards_get_retention (storage_uri : String) :
    Guards (Shielded shield slot body) (get_retention storage storage_uri) :=
  guards_at fun _ _ => guards_catching (guards_bind (guards_reading _) fun _ => guards_pure _)
    fun _ => guards_pure _

theorem guards_is_retained (storage_uri : String) (now : Time) :
    Guards (Shielded shield slot body) (is_retention_active storage storage_uri now) :=
  guards_bind (guards_get_retention storage_uri) fun _ => guards_pure _

/-! ### A put -/

theorem guards_write_object (hbucket : '/' ∉ storage.bucket.toList) (now : Time)
    (args : PutArgs β) (hne : slot_of_put storage args ≠ slot) :
    Guards (Shielded shield slot body) (write_object storage now args) := by
  refine guards_bind (guards_put hne _ _) fun _ => guards_bind ?_ fun _ => guards_pure _
  unfold retain_new
  split
  · split
    · exact guards_raise _
    · refine guards_bind (guards_set_retention _ _ fun _ _ heq => hne ?_) fun _ => guards_pure ()
      rw [slot_of_key hbucket] at heq
      exact Except.ok.inj heq
  · exact guards_pure ()

/-- With write-once on, a put to an object that is there leaves it. -/
theorem guards_put_object (hbucket : '/' ∉ storage.bucket.toList)
    (hworm : storage.worm_mode = true) (hreads : ∀ n, storage.read_fate n = .answered) (now : Time)
    (args : PutArgs β) : Guards (Shielded shield slot body) (put_object storage now args) := by
  unfold put_object
  rw [if_pos hworm]
  by_cases hown : slot_of_put storage args = slot
  · intro s hs
    obtain ⟨object, hget, -⟩ := id hs
    refine (whether_meets (reading.meets hreads _ (hown ▸ hget) hs)).bind (fun there t ht => ?_)
      fun _ _ ht => by cases ht.1
    rw [if_pos (Except.ok.inj ht.1)]
    exact meets_pure.2 ht.2
  · refine guards_bind (guards_whether (guards_reading _)) fun there => ?_
    split
    · exact guards_pure _
    · exact guards_write_object hbucket now args hown

/-! ### A delete -/

/-- A hold that is asked for, where it is answered. -/
theorem is_legal_hold_active.meets (hreads : ∀ n, storage.read_fate n = .answered)
    {storage_uri : String} (hslot : slot_of_uri storage_uri = .ok slot) {s : Service β}
    (hs : Shielded .hold slot body s.objects) :
    Meets (fun _ t => Shielded .hold slot body t.objects)
      (is_legal_hold_active storage storage_uri) s
        fun r t => r = .ok true ∧ Shielded .hold slot body t.objects := by
  obtain ⟨object, hget, -, hon⟩ := id hs
  unfold is_legal_hold_active
  rw [hslot]
  refine meets_bind.2 (meets_lift.2 (then_ok.2 (Meets.catching (P := fun r t => r = .ok true ∧
    Shielded .hold slot body t.objects) ((reading.meets hreads _ hget hs).bind
      (fun status t ht => meets_pure.2 ⟨?_, ht.2⟩) fun e t ht => ?_) (fun _ _ ht => ht)
        fun _ _ ht => by cases ht.1)))
  · have hstatus := ht.1
    rw [hon] at hstatus
    cases hstatus
    rfl
  · have hstatus := ht.1
    rw [hon] at hstatus
    cases hstatus

theorem is_retention_active.meets (hreads : ∀ n, storage.read_fate n = .answered)
    {storage_uri : String} (hslot : slot_of_uri storage_uri = .ok slot) {retain_until now : Time}
    (hnow : now < retain_until) {s : Service β}
    (hs : Shielded (.retention retain_until) slot body s.objects) :
    Meets (fun _ t => Shielded (.retention retain_until) slot body t.objects)
      (is_retention_active storage storage_uri now) s
        fun r t => r = .ok true ∧ Shielded (.retention retain_until) slot body t.objects := by
  obtain ⟨object, hget, -, hon⟩ := id hs
  obtain ⟨retention, hretention, huntil⟩ := Option.map_eq_some_iff.1 hon
  unfold is_retention_active get_retention
  rw [hslot]
  refine Meets.bind (P := fun r t => r = .ok (some retention) ∧
    Shielded (.retention retain_until) slot body t.objects)
      (meets_bind.2 (meets_lift.2 (then_ok.2 (Meets.catching (P := fun r t =>
        r = .ok (some retention) ∧ Shielded (.retention retain_until) slot body t.objects)
          ((reading.meets hreads _ hget hs).bind (fun found t ht => meets_pure.2 ⟨?_, ht.2⟩)
            fun e t ht => ?_) (fun _ _ ht => ht) fun _ _ ht => by cases ht.1))))
      (fun found t ht => meets_pure.2 ⟨?_, ht.2⟩) fun _ _ ht => by cases ht.1
  · have hfound := ht.1
    rw [hretention] at hfound
    cases hfound
    rfl
  · have hfound := ht.1
    rw [hretention] at hfound
    cases hfound
  · cases ht.1
    rw [Option.any_some, huntil, decide_eq_true hnow]

/-- What is protected is not deleted. -/
theorem guards_delete_object (hreads : ∀ n, storage.read_fate n = .answered) {now : Time}
    {storage_uri : String} (hspares : ∀ retain_until, shield = .retention retain_until →
      slot_of_uri storage_uri = .ok slot → now < retain_until) :
    Guards (Shielded shield slot body) (delete_object storage now storage_uri) := by
  by_cases hown : slot_of_uri storage_uri = .ok slot
  · cases shield with
    | hold =>
      refine fun s hs => (is_legal_hold_active.meets hreads hown hs).bind (fun held t ht => ?_)
        fun _ _ ht => by cases ht.1
      rw [if_pos (Except.ok.inj ht.1)]
      exact meets_raise.2 ht.2
    | retention retain_until =>
      refine guards_bind (guards_is_held storage_uri) fun held => ?_
      split
      · exact guards_raise _
      · refine fun s hs => (is_retention_active.meets hreads hown (hspares retain_until rfl hown)
          hs).bind (fun retained t ht => ?_) fun _ _ ht => by cases ht.1
        rw [if_pos (Except.ok.inj ht.1)]
        exact meets_raise.2 ht.2
  · refine guards_bind (guards_is_held storage_uri) fun held => ?_
    split
    · exact guards_raise _
    · refine guards_bind (guards_is_retained storage_uri now) fun retained => ?_
      split
      · exact guards_raise _
      · refine guards_at fun other hslot => guards_bind (guards_delete fun heq => hown ?_)
          fun _ => guards_pure true
        rw [hslot, heq]

/-! ## Runs -/

theorem guards_perform (hbucket : '/' ∉ storage.bucket.toList) (hworm : storage.worm_mode = true)
    (hreads : ∀ n, storage.read_fate n = .answered) {timed : Timed β}
    (hspares : ¬Lifts slot timed shield) :
    Guards (Shielded shield slot body) (perform storage timed) := by
  unfold perform
  obtain ⟨now, called⟩ := timed
  cases called with
  | put_object args => exact guards_drop (guards_put_object hbucket hworm hreads now args)
  | get_object storage_uri => exact guards_drop (guards_get_object storage_uri)
  | delete_object storage_uri =>
    refine guards_drop (guards_delete_object hreads fun retain_until hshield hslot => ?_)
    rw [hshield] at hspares
    exact not_le.1 fun hover => hspares ⟨storage_uri, hslot, .inr ⟨rfl, hover⟩⟩
  | apply_legal_hold storage_uri => exact guards_drop (guards_apply storage_uri)
  | release_legal_hold storage_uri =>
    refine guards_drop (guards_release fun hshield hslot => ?_)
    rw [hshield] at hspares
    exact hspares ⟨storage_uri, rfl, hslot⟩
  | is_legal_hold_active storage_uri => exact guards_drop (guards_is_held storage_uri)
  | set_retention storage_uri mode until_time =>
    refine guards_drop (guards_set_retention mode until_time fun retain_until hshield hslot => ?_)
    rw [hshield] at hspares
    exact hspares ⟨storage_uri, hslot, .inl ⟨mode, until_time, rfl⟩⟩
  | get_retention storage_uri => exact guards_drop (guards_get_retention storage_uri)
  | is_retention_active storage_uri at_time =>
    exact guards_drop (guards_is_retained storage_uri (at_time.getD now))

/-- With write-once on, and while questions to the service are answered, an
object under a hold or a retention keeps its body and its protection in every
state of every run of calls of which none lifts it, whichever writes fail. -/
theorem shielded_object_stays (storage : S3ObjectStorage) (hbucket : '/' ∉ storage.bucket.toList)
    (hworm : storage.worm_mode = true) (hreads : ∀ n, storage.read_fate n = .answered)
    (shield : Shield) (slot : Slot) (body : β) (s : Service β)
    (hs : Shielded shield slot body s.objects) (calls : List (Timed β))
    (hspares : ∀ timed ∈ calls, ¬Lifts slot timed shield) :
    ∀ t ∈ states storage s calls, Shielded shield slot body t.objects := by
  induction calls generalizing s with
  | nil => exact fun t ht => absurd ht List.not_mem_nil
  | cons timed rest ih =>
    obtain ⟨hsteps, hlast⟩ := guards_perform hbucket hworm hreads
      (hspares timed List.mem_cons_self) s hs
    intro t ht
    rcases List.mem_append.1 ht with hin | hin
    · exact hsteps.invariant (fun _ _ h _ => h) hs t hin
    · exact ih _ hlast (fun other hother => hspares other (List.mem_cons_of_mem timed hother)) t hin

/-- A call that gets no answer raises, and is counted. -/
theorem unanswered {fate : Nat → Fate} {op : Objects β → Except PyErr (α × Objects β)}
    {s : Service β} (h : fate s.calls ≠ .answered) :
    Meets (fun _ _ => True) (call fate op) s fun r t => (∃ e, r = .error e) ∧
      t.calls = s.calls + 1 := by
  refine ⟨steps_true _ _, ?_, rfl⟩
  show ∃ e, answer_of (fate s.calls) (op s.objects) = .error e
  unfold answer_of
  split
  · rename_i hanswered
    exact absurd hanswered h
  · exact ⟨_, rfl⟩

/-- Then the default stands for the answer. -/
theorem unanswered_default {fate : Nat → Fate} {op : Objects β → Except PyErr (α × Objects β)}
    {f : α → α'} {default : α'} {s : Service β} (h : fate s.calls ≠ .answered) :
    Meets (fun _ _ => True) (catching (do
        let a ← call fate op
        pure (f a)) fun _ => pure default) s
      fun r t => r = .ok default ∧ t.calls = s.calls + 1 := by
  refine Meets.catching (P := fun r t => (∃ e, r = .error e) ∧ t.calls = s.calls + 1)
    ((unanswered h).bind (fun a t ht => ?_) fun e t ht => ⟨⟨e, rfl⟩, ht.2⟩) (fun a t ht => ?_)
      fun e t ht => meets_pure.2 ⟨rfl, ht.2⟩
  · obtain ⟨⟨e, he⟩, -⟩ := ht
    cases he
  · obtain ⟨⟨e, he⟩, -⟩ := ht
    cases he

/-- The delete of an object whose two questions get no answer removes it,
whatever protects it, unless the delete itself is refused. -/
theorem unanswered_questions_delete {now : Time} {storage_uri : String} {s : Service β}
    (hslot : slot_of_uri storage_uri = .ok slot) (hhold : storage.read_fate s.calls ≠ .answered)
    (hretention : storage.read_fate (s.calls + 1) ≠ .answered)
    (hwrite : storage.write_fate (s.calls + 2) ≠ .refused) :
    Meets (fun _ _ => True) (delete_object storage now storage_uri) s
      fun _ t => t.objects.get? slot = none := by
  have hheld : Meets (fun _ _ => True) (is_legal_hold_active storage storage_uri) s
      fun r t => r = .ok false ∧ t.calls = s.calls + 1 := by
    unfold is_legal_hold_active client_get_legal_hold reading
    rw [hslot]
    exact meets_bind.2 (meets_lift.2 (then_ok.2 (unanswered_default hhold)))
  refine hheld.bind (fun held t ht => ?_) fun _ _ ht => by cases ht.1
  cases ht.1
  rw [if_neg Bool.false_ne_true]
  have hretained : Meets (fun _ _ => True) (is_retention_active storage storage_uri now) t
      fun r u => r = .ok false ∧ u.calls = s.calls + 2 := by
    unfold is_retention_active get_retention client_get_retention reading
    rw [hslot]
    refine Meets.bind (P := fun r u => r = .ok none ∧ u.calls = s.calls + 2) (meets_bind.2
      (meets_lift.2 (then_ok.2 ((unanswered_default (ht.2.symm ▸ hretention)).post
        fun r u hu => ⟨hu.1, hu.2.trans (congrArg Nat.succ ht.2)⟩))))
      (fun retention u hu => ?_) fun _ _ hu => by cases hu.1
    cases hu.1
    exact meets_pure.2 ⟨rfl, hu.2⟩
  refine hretained.bind (fun retained u hu => ?_) fun _ _ hu => by cases hu.1
  cases hu.1
  rw [if_neg Bool.false_ne_true, hslot]
  have herased : (objects_after (storage.write_fate u.calls) (.ok ((), u.objects.erase slot))
      u.objects).get? slot = none := by
    rw [hu.2]
    unfold objects_after
    cases hfate : storage.write_fate (s.calls + 2) with
    | refused => exact absurd hfate hwrite
    | answered => rw [Dict.get?_erase, if_pos rfl]
    | lost => rw [Dict.get?_erase, if_pos rfl]
  have hdeleted : Meets (fun _ _ => True) (client_delete_object storage slot) u
      fun _ v => v.objects.get? slot = none := ⟨steps_true _ _, herased⟩
  exact meets_bind.2 (meets_lift.2 (then_ok.2 (hdeleted.bind (fun _ _ hv => meets_pure.2 hv)
    fun _ _ hv => hv)))

/-! ## A bucket of which writes fail -/

def shaky_storage : S3ObjectStorage where
  bucket := "bea"
  key_prefix := ""
  worm_mode := true
  retention_days := 0
  retention_mode := "GOVERNANCE"
  upper := String.map Char.toUpper
  plus_days now n := some (now + n)
  read_fate _ := .answered
  write_fate n := if n % 2 = 0 then .lost else .refused

def held_bid : Service String where
  objects := Dict.empty.set ("bea".toList, "tenants/acme/documents/doc_1/raw/bid.pdf".toList)
    ⟨"bid", "application/pdf", some "ON", none⟩
  calls := 0

def bid_uri : String := "object://s3/bea/tenants/acme/documents/doc_1/raw/bid.pdf"

/-- A put, a delete, and a release of another address. -/
def shaky_calls : List (Timed String) :=
  [⟨0, .put_object ⟨"acme", "document", "doc_1", "bid.pdf", "forged", none⟩⟩,
    ⟨1, .delete_object bid_uri⟩, ⟨2, .release_legal_hold "object://s3/bea/other"⟩,
    ⟨3, .delete_object "object://s3/bea/other"⟩]

theorem shaky_bid_stays : ∃ t, (states shaky_storage held_bid shaky_calls).getLast? = some t ∧
    Shielded .hold ("bea".toList, "tenants/acme/documents/doc_1/raw/bid.pdf".toList) "bid"
      t.objects ∧ t.calls = 6 := by
  have hcalls : (states shaky_storage held_bid shaky_calls).getLast?.map Service.calls =
      some 6 := by
    decide +kernel
  obtain ⟨t, ht, hcount⟩ := Option.map_eq_some_iff.1 hcalls
  refine ⟨t, ht, shielded_object_stays shaky_storage (by decide) rfl (fun _ => rfl) .hold _ "bid"
    held_bid ⟨⟨"bid", "application/pdf", some "ON", none⟩, rfl, rfl, rfl⟩ shaky_calls ?_ t
      (List.mem_of_getLast? ht), hcount⟩
  rintro timed hin ⟨storage_uri, hcall, hslot⟩
  rcases List.mem_cons.1 hin with rfl | hin
  · cases hcall
  rcases List.mem_cons.1 hin with rfl | hin
  · cases hcall
  rcases List.mem_cons.1 hin with rfl | hin
  · cases hcall
    exact absurd (congrArg Except.toOption hslot) (by decide +kernel)
  · rw [List.mem_singleton.1 hin] at hcall
    cases hcall

end bid_evaluation.s3_laws
