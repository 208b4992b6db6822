-- The laws of the release calls over runs: any operations of the service and
-- any release calls, in any order. A record of a replay or of an assessment
-- stays as it is, and a rollout follows the last plan.
import BidEvaluation.ReplaySteps

open dict_lib stepwise zoom crash_lib bid_evaluation.values bid_evaluation.core
  bid_evaluation.job_steps bid_evaluation.op_steps bid_evaluation.operations bid_evaluation.writes
  bid_evaluation.links bid_evaluation.crash_laws
  bid_evaluation.store_release bid_evaluation.replay_steps

namespace bid_evaluation.release_runs

variable {env : ReleaseEnv} {d d' : Desk}

/-! ## The verdict of an assessment -/

/-- The assessment admits a release exactly when nothing speaks against it:
there is a data set, each of the seven gates has passed, and so has the replay. -/
structure Verdict (data : Readiness) : Prop where
  gates : data.gate_results.map Prod.fst = expected_gates
  admitted : data.admitted = true ↔ strip data.dataset_version ≠ "" ∧
    (∀ gate ∈ data.gate_results, gate.2 = true) ∧ data.replay_passed = true
  reasons : data.admitted = true ↔ data.failed_checks = []

theorem no_version_checks (dataset_version : String) :
    version_checks dataset_version = [] ↔ strip dataset_version ≠ "" := by
  unfold version_checks
  split
  · rename_i h
    simp [h]
  · rename_i h
    simp [h]

theorem no_gate_checks (gate_results : List (String × Bool)) :
    gate_checks gate_results = [] ↔ ∀ gate ∈ gate_results, gate.2 = true := by
  simp [gate_checks, List.filter_eq_nil_iff]

theorem no_replay_checks (replay_passed : Bool) :
    replay_checks replay_passed = [] ↔ replay_passed = true := by
  cases replay_passed <;> simp [replay_checks]

theorem readiness.verdict (args : ReadinessArgs) (assessment_id : String) :
    Verdict (readiness args assessment_id) := by
  have hadmitted : (readiness args assessment_id).admitted = true ↔
      (readiness args assessment_id).failed_checks = [] := by
    simp [readiness]
  have hgates : (normalized_gate_results args.gate_results).map Prod.fst = expected_gates := by
    unfold normalized_gate_results
    rw [List.map_map]
    exact List.map_id' expected_gates
  refine ⟨hgates, hadmitted.trans ?_, hadmitted⟩
  simp only [readiness, List.append_eq_nil_iff, no_version_checks, no_gate_checks,
    no_replay_checks, and_assoc]

/-! ## One write -/

/-- What one write of a call can do. -/
inductive DeskStep (env : ReleaseEnv) (d d' : Desk) : Prop where
  | worked (h : Seen env.toEnv d.world d'.world) (hsame : d'.releases = d.releases)
  | replayed (run : ReplayRun)
      (hid : DrawnBefore env.toEnv "rpy_" d.world.draws run.replay_run_id)
      (hnew : d.releases.release_replay_runs.get? run.replay_run_id = none)
      (htrue : Replayed run.toReplayData d.world.store)
      (h : d' = { d with releases := { d.releases with
        release_replay_runs := d.releases.release_replay_runs.set run.replay_run_id run } })
  | assessed (found : Assessment)
      (hid : DrawnBefore env.toEnv "ra_" d.world.draws found.assessment_id)
      (hnew : d.releases.release_readiness_assessments.get? found.assessment_id = none)
      (hverdict : Verdict found.toReadiness)
      (h : d' = { d with releases := { d.releases with
        release_readiness_assessments :=
          d.releases.release_readiness_assessments.set found.assessment_id found } })
  | planned (policy : RolloutPolicy)
      (h : d' = { d with releases := { d.releases with
        release_rollout_policies :=
          d.releases.release_rollout_policies.set policy.release_id policy } })

structure Sound (env : ReleaseEnv) (d : Desk) : Prop where
  good : Good env.toEnv d.world d.world.store
  replay_ids : ∀ id run, d.releases.release_replay_runs.get? id = some run →
    DrawnBefore env.toEnv "rpy_" d.world.draws id
  replays : ∀ id run, d.releases.release_replay_runs.get? id = some run →
    run.replay_run_id = id ∧ Replayed run.toReplayData d.world.store
  assessment_ids : ∀ id found, d.releases.release_readiness_assessments.get? id = some found →
    DrawnBefore env.toEnv "ra_" d.world.draws id
  assessments : ∀ id found, d.releases.release_readiness_assessments.get? id = some found →
    found.assessment_id = id ∧ Verdict found.toReadiness

theorem sound_start : Sound env Desk.start := by
  refine ⟨good_empty _, ?_, ?_, ?_, ?_⟩ <;>
  · intro id found hfound
    cases hfound

theorem sound_step (h : DeskStep env d d') (hd : Sound env d) : Sound env d' := by
  cases h with
  | worked hseen hsame =>
    obtain ⟨kind, hwrite⟩ := hseen.write
    have hdraws := draws_grow hwrite
    refine ⟨good_step hseen hd.good, ?_, ?_, ?_, ?_⟩ <;> rw [hsame]
    · exact fun id run hrun => (hd.replay_ids id run hrun).mono hdraws
    · exact fun id run hrun => ⟨(hd.replays id run hrun).1,
        (hd.replays id run hrun).2.lasts (lasts_step hseen)⟩
    · exact fun id found hfound => (hd.assessment_ids id found hfound).mono hdraws
    · exact hd.assessments
  | replayed run hid hnew htrue h =>
    subst h
    refine ⟨hd.good, fun id other hother => ?_, fun id other hother => ?_, hd.assessment_ids,
      hd.assessments⟩
    all_goals
      dsimp only at hother ⊢
      rw [Dict.get?_set] at hother
      split at hother
    · rename_i heq
      exact heq ▸ hid
    · exact hd.replay_ids id other hother
    · rename_i heq
      cases hother
      exact ⟨heq.symm, htrue⟩
    · exact hd.replays id other hother
  | assessed found hid hnew hverdict h =>
    subst h
    refine ⟨hd.good, hd.replay_ids, hd.replays, fun id other hother => ?_,
      fun id other hother => ?_⟩
    all_goals
      dsimp only at hother ⊢
      rw [Dict.get?_set] at hother
      split at hother
    · rename_i heq
      exact heq ▸ hid
    · exact hd.assessment_ids id other hother
    · rename_i heq
      cases hother
      exact ⟨heq.symm, hverdict⟩
    · exact hd.assessments id other hother
  | planned policy h =>
    subst h
    exact ⟨hd.good, hd.replay_ids, hd.replays, hd.assessment_ids, hd.assessments⟩

/-- No record is written twice. -/
structure Keeps (d d' : Desk) : Prop where
  replays : ∀ id run, d.releases.release_replay_runs.get? id = some run →
    d'.releases.release_replay_runs.get? id = some run
  assessments : ∀ id found, d.releases.release_readiness_assessments.get? id = some found →
    d'.releases.release_readiness_assessments.get? id = some found

theorem keeps_step (h : DeskStep env d d') : Keeps d d' := by
  cases h with
  | worked hseen hsame => exact ⟨fun id run hrun => hsame ▸ hrun, fun id found hf => hsame ▸ hf⟩
  | replayed run hid hnew htrue h =>
    subst h
    refine ⟨fun id other hother => ?_, fun id found hfound => hfound⟩
    dsimp only
    rw [Dict.get?_set_of_ne _ _ ?_]
    · exact hother
    · rintro rfl
      rw [hnew] at hother
      cases hother
  | assessed found hid hnew hverdict h =>
    subst h
    refine ⟨fun id run hrun => hrun, fun id other hother => ?_⟩
    dsimp only
    rw [Dict.get?_set_of_ne _ _ ?_]
    · exact hother
    · rintro rfl
      rw [hnew] at hother
      cases hother
  | planned policy h =>
    subst h
    exact ⟨fun id run hrun => hrun, fun id found hfound => hfound⟩

/-! ## The programs of the calls -/

/-- Each write is a step, and if the program returns, this is so at its end. -/
abbrev Calls (env : ReleaseEnv) (m : ReleaseAct α) (d : Desk) (Q : α → Desk → Prop) : Prop :=
  Meets (DeskStep env) m d fun r d' => ∀ a, r = .ok a → Q a d'

theorem final_on_world (m : Act α) (d : Desk) :
    (on_world m).final d = { d with world := m.final d.world } := final_zoomed m rfl

/-- Go past a program that does not see the releases. -/
theorem past_world {m : Act α} {f : α → ReleaseAct β} {P : α → World → Prop}
    {Q : β → Desk → Prop} (hd : Sound env d)
    (hm : Meets (Seen env.toEnv) m d.world (OnReturn P))
    (hf : ∀ a d', Sound env d' → d'.releases = d.releases → d.world.draws ≤ d'.world.draws →
      P a d'.world → Calls env (f a) d' Q) : Calls env (on_world m >>= f) d Q := by
  have hsteps : Steps (DeskStep env) d ((on_world m).written d) :=
    steps_zoomed rfl (fun a b h => .worked h rfl) hm.1
  have hdraws : d.world.draws ≤ (m.final d.world).draws := by
    refine (hm.1.mono fun a b h => ?_).last (R := fun w w' : World => w.draws ≤ w'.draws)
      (fun w => Nat.le_refl _) fun _ _ _ => Nat.le_trans
    obtain ⟨kind, hwrite⟩ := h.write
    exact draws_grow hwrite
  refine Meets.bind (P := fun r d' => Sound env d' ∧ d'.releases = d.releases ∧
    d.world.draws ≤ d'.world.draws ∧ OnReturn P r d'.world) ⟨hsteps, ?_⟩
    (fun a d' h => hf a d' h.1 h.2.1 h.2.2.1 h.2.2.2) (by rintro e d' - b ⟨⟩)
  refine ⟨hsteps.invariant_last (fun _ _ => sound_step) hd, ?_⟩
  rw [final_on_world]
  exact ⟨rfl, hdraws, hm.2⟩

theorem past_noise {m : Act α} {f : α → ReleaseAct β} {Q : β → Desk → Prop} (hd : Sound env d)
    (hm : Watched env.toEnv m)
    (hf : ∀ a d', Sound env d' → d'.releases = d.releases → d.world.draws ≤ d'.world.draws →
      Calls env (f a) d' Q) : Calls env (on_world m >>= f) d Q := by
  have hend : OnReturn (fun _ _ => True) (m.result d.world) (m.final d.world) :=
    (leaves_any m d.world).2
  exact past_world hd ⟨hm d.world hd.good, hend⟩
    fun a d' hd' hsame hdraws _ => hf a d' hd' hsame hdraws

/-- Go past the time of a record. The store is as before, and one more name is drawn. -/
theorem past_time {f : Int → ReleaseAct β} {Q : β → Desk → Prop} (hd : Sound env d)
    (hf : ∀ a d', Sound env d' → d'.releases = d.releases → d'.world.store = d.world.store →
      d.world.draws < d'.world.draws → Calls env (f a) d' Q) :
    Calls env (on_world (utcnow env.toEnv) >>= f) d Q := by
  have htime : Leaves (utcnow env.toEnv) d.world fun _ t =>
      t.store = d.world.store ∧ d.world.draws < t.draws := by
    refine (endings.utcnow.reads d.world).post ?_
    rintro r t ⟨rfl, rfl⟩
    exact ⟨rfl, Nat.lt_succ_self _⟩
  exact past_world hd ⟨watched_utcnow env.toEnv d.world hd.good, htime.2⟩
    fun a d' hd' hsame _ h => hf a d' hd' hsame h.1 h.2

/-- Go past the draw of a name. -/
theorem past_name {f : String → ReleaseAct β} {Q : β → Desk → Prop} (hd : Sound env d)
    (hf : ∀ d', Sound env d' → d'.releases = d.releases → d.world.draws ≤ d'.world.draws →
      Calls env (f (env.uuid4.hex12 d.world.draws)) d' Q) :
    Calls env (on_world (uuid4_hex12 env.toEnv) >>= f) d Q := by
  refine past_world hd ⟨watched_uuid4 env.toEnv d.world hd.good, (leaves_name d.world).2⟩
    fun a d' hd' hsame hdraws h => ?_
  rw [h]
  exact hf d' hd' hsame hdraws

/-- Go past a write to the releases. -/
theorem past_releases {g : Releases → Releases} {f : Unit → ReleaseAct β} {Q : β → Desk → Prop}
    (hd : Sound env d) (hstep : DeskStep env d { d with releases := g d.releases })
    (hf : Sound env { d with releases := g d.releases } →
      Calls env (f ()) { d with releases := g d.releases } Q) :
    Calls env (update_releases g >>= f) d Q := by
  refine meets_bind.2 ?_
  refine meets_write.2 ⟨hstep, ?_⟩
  exact hf (sound_step hstep hd)

theorem run_release_replay_e2e.spec (hd : Sound env d) (args : ReplayArgs) :
    Calls env (run_release_replay_e2e env args) d fun _ _ => True := by
  refine past_world hd (replay.spec args hd.good) fun data d₁ h₁ hsame₁ hdraws ⟨htrue, hname⟩ => ?_
  refine past_time h₁ fun created_at d₂ h₂ hsame₂ hstore hlt => ?_
  refine past_releases h₂ (.replayed
    { data with trace_id := args.trace_id, created_at := created_at } ?_ ?_ ?_ rfl) fun h₃ => ?_
  · exact ⟨d.world.draws, Nat.lt_of_le_of_lt hdraws hlt, hname⟩
  · show d₂.releases.release_replay_runs.get? data.replay_run_id = none
    rw [hsame₂, hsame₁, hname]
    by_contra hne
    obtain ⟨run, hrun⟩ := Option.ne_none_iff_exists'.1 hne
    exact undrawn (hd.replay_ids _ run hrun)
  · exact hstore ▸ htrue
  · refine past_noise h₃ (watched_audit _ _ _ _) fun _ d₄ h₄ _ _ => ?_
    exact past_noise h₄ (watched_save _) fun _ d₅ _ _ _ => meets_pure.2 fun _ _ => trivial

/-- The assessment of a readiness is stored as it was returned. -/
def OnRecord (data : Readiness) (d : Desk) : Prop :=
  ∃ found, d.releases.release_readiness_assessments.get? data.assessment_id = some found ∧
    found.toReadiness = data

theorem OnRecord.same {data : Readiness} (h : OnRecord data d) (hsame : d'.releases = d.releases) :
    OnRecord data d' := by
  obtain ⟨found, hfound, hdata⟩ := h
  exact ⟨found, hsame ▸ hfound, hdata⟩

theorem evaluate_release_readiness.spec (hd : Sound env d) (args : ReadinessArgs) :
    Calls env (evaluate_release_readiness env args) d fun data d' =>
      Sound env d' ∧ OnRecord data d' ∧ ∃ id, data = readiness args id := by
  have hassess : Calls env (assess env args) d fun data d' =>
      Sound env d' ∧ OnRecord data d' ∧ ∃ id, data = readiness args id := by
    refine past_name hd fun d₁ h₁ hsame₁ hdraws => ?_
    refine past_time h₁ fun created_at d₂ h₂ hsame₂ _ hlt => ?_
    refine past_releases h₂ (.assessed
      { readiness args ("ra_" ++ env.uuid4.hex12 d.world.draws) with
        trace_id := args.trace_id, created_at := created_at } ?_ ?_ ?_ rfl) fun h₃ => ?_
    · exact ⟨d.world.draws, Nat.lt_of_le_of_lt hdraws hlt, rfl⟩
    · show d₂.releases.release_readiness_assessments.get? ("ra_" ++ env.uuid4.hex12 _) = none
      rw [hsame₂, hsame₁]
      by_contra hne
      obtain ⟨found, hfound⟩ := Option.ne_none_iff_exists'.1 hne
      exact undrawn (hd.assessment_ids _ found hfound)
    · exact readiness.verdict args _
    · refine past_noise h₃ (watched_audit _ _ _ _) fun _ d₄ h₄ hsame₄ _ => meets_pure.2 ?_
      rintro _ ⟨⟩
      refine ⟨h₄, OnRecord.same ⟨_, Dict.get?_set_self _ _ _, rfl⟩ hsame₄, _, rfl⟩
  refine hassess.bind (fun data d₁ h => ?_) (by rintro e d₁ - b ⟨⟩)
  obtain ⟨h₁, hrecord, hdata⟩ := h data rfl
  refine past_noise h₁ (watched_save _) fun _ d₂ h₂ hsame₂ _ => meets_pure.2 ?_
  rintro _ ⟨⟩
  exact ⟨h₂, hrecord.same hsame₂, hdata⟩

theorem required_readiness.spec (hd : Sound env d) (args : ReadinessArgs) :
    Calls env (required_readiness env args) d fun found d' => Sound env d' ∧
      (env.p6_readiness_required = true → ∃ data, found = some data ∧ OnRecord data d' ∧
        ∃ id, data = readiness args id) := by
  refine meets_ite.2 ⟨fun _ => ?_, fun hno => meets_pure.2 ?_⟩
  · refine (evaluate_release_readiness.spec hd args).bind (fun data d₁ h => meets_pure.2 ?_)
      (by rintro e d₁ - b ⟨⟩)
    rintro _ ⟨⟩
    obtain ⟨h₁, hrecord, hdata⟩ := h data rfl
    exact ⟨h₁, fun _ => ⟨data, rfl, hrecord, hdata⟩⟩
  · rintro _ ⟨⟩
    exact ⟨hd, fun hyes => absurd hyes hno⟩

theorem execute_release_pipeline.spec (hd : Sound env d) (args : ReadinessArgs) :
    Calls env (execute_release_pipeline env args) d fun data d' => Sound env d' ∧
      (env.p6_readiness_required = true → ∃ id pipeline_id,
        data = pipeline_data env args pipeline_id (some (readiness args id)) ∧
          OnRecord (readiness args id) d') := by
  refine past_name hd fun d₁ h₁ _ _ => ?_
  refine (required_readiness.spec h₁ args).bind (fun found d₂ h => ?_) (by rintro e d₂ - b ⟨⟩)
  obtain ⟨h₂, hfound⟩ := h found rfl
  refine past_noise h₂ (watched_audit _ _ _ _) fun _ d₃ h₃ hsame₃ _ => ?_
  refine past_noise h₃ (watched_save _) fun _ d₄ h₄ hsame₄ _ => meets_pure.2 ?_
  rintro _ ⟨⟩
  refine ⟨h₄, fun hreq => ?_⟩
  obtain ⟨data, rfl, hrecord, id, rfl⟩ := hfound hreq
  exact ⟨id, _, rfl, hrecord.same (hsame₄.trans hsame₃)⟩

theorem upsert_rollout_policy.spec (hd : Sound env d) (args : PlanArgs) :
    Calls env (upsert_rollout_policy env args) d fun _ _ => True := by
  refine past_time hd fun updated_at d₁ h₁ hsame₁ _ _ => ?_
  refine past_releases h₁ (.planned (rollout_policy env args updated_at) rfl) fun h₂ => ?_
  exact past_noise h₂ (watched_save _) fun _ d₂ _ _ _ => meets_pure.2 fun _ _ => trivial

/-! ## Runs -/

theorem steps_of_quiet {m : ReleaseAct α} {Q : α → Desk → Prop} (h : Calls env m d Q) :
    Steps (DeskStep env) d ((store_release.quiet m).written d) := by
  unfold store_release.quiet
  rw [written_bind_pure]
  exact h.1

theorem call_steps (hd : Sound env d) (call : Call) :
    Steps (DeskStep env) d ((call.act env).written d) := by
  cases call with
  | op operation =>
    have hseen : Steps (Seen env.toEnv) d.world ((operation.act env.toEnv).written d.world) :=
      seen_of_good hd.good operation
    exact steps_zoomed rfl (fun a b h => .worked h rfl) hseen
  | replay args => exact steps_of_quiet (run_release_replay_e2e.spec hd args)
  | readiness args => exact steps_of_quiet (evaluate_release_readiness.spec hd args)
  | pipeline args => exact steps_of_quiet (execute_release_pipeline.spec hd args)
  | plan args => exact steps_of_quiet (upsert_rollout_policy.spec hd args)

theorem sound_call (hd : Sound env d) (call : Call) : Sound env ((call.act env).final d) :=
  (call_steps hd call).invariant_last (fun _ _ => sound_step) hd

theorem sound_after (calls : List Call) (hd : Sound env d) : Sound env (after env d calls) := by
  induction calls generalizing d with
  | nil => exact hd
  | cons call rest ih => exact ih (sound_call hd call)

/-- What each step keeps of a sound desk is so in every state of a run. -/
theorem desks_keep {I : Desk → Prop} (hkeep : ∀ a b, DeskStep env a b → I a → I b)
    (calls : List Call) (hd : Sound env d) (hI : I d) : ∀ t ∈ desks env d calls, I t := by
  induction calls generalizing d with
  | nil => exact fun t ht => absurd ht List.not_mem_nil
  | cons call rest ih =>
    intro t ht
    have hsteps := call_steps hd call
    rcases List.mem_append.1 ht with hin | hin
    · exact hsteps.invariant hkeep hI t hin
    · exact ih (sound_call hd call) (hsteps.invariant_last hkeep hI) t hin

/-- The state after a run is its start or one that it wrote. -/
theorem after_mem (calls : List Call) : after env d calls ∈ d :: desks env d calls := by
  induction calls generalizing d with
  | nil => exact List.mem_singleton_self d
  | cons call rest ih =>
    have hlast : (call.act env).final d ∈ d :: (call.act env).written d :=
      last_of_all List.mem_cons_self fun t ht => List.mem_cons_of_mem d ht
    rcases List.mem_cons.1 (ih (d := (call.act env).final d)) with heq | hin
    · have hfinal : after env d (call :: rest) = (call.act env).final d := heq
      rw [hfinal]
      rcases List.mem_cons.1 hlast with hstart | hwritten
      · rw [hstart]
        exact List.mem_cons_self
      · exact List.mem_cons_of_mem _ (List.mem_append_left _ hwritten)
    · exact List.mem_cons_of_mem _ (List.mem_append_right _ hin)

theorem sound_desks (calls : List Call) (hd : Sound env d) : ∀ t ∈ desks env d calls, Sound env t :=
  desks_keep (fun _ _ => sound_step) calls hd hd

/-! ## The replays -/

/-- Whatever the service does later, the record of a replay stays as it is, and
stays true: its jobs are there, each with its own work and its tenant, a parse
job that had ended is at the same end, and of a replay that passed it succeeded. -/
theorem recorded_replays_stay_true (env : ReleaseEnv) (calls later : List Call) (id : String)
    (run : ReplayRun)
    (h : (after env Desk.start calls).releases.release_replay_runs.get? id = some run) :
    ∀ t ∈ after env Desk.start calls :: desks env (after env Desk.start calls) later,
      t.releases.release_replay_runs.get? id = some run ∧
        Replayed run.toReplayData t.world.store := by
  have hd : Sound env (after env Desk.start calls) := sound_after calls sound_start
  have hkept := desks_keep (fun a b hstep ha => (keeps_step hstep).replays id run ha) later hd h
  intro t ht
  rcases List.mem_cons.1 ht with rfl | hin
  · exact ⟨h, (hd.replays id run h).2⟩
  · exact ⟨hkept t hin, ((sound_desks later hd t hin).replays id run (hkept t hin)).2⟩

/-- A service that admits a release only on its readiness. -/
def strict_release : ReleaseEnv :=
  { calm_env with
    adapter := fun _ => some fun _ => .ok [("text", .str "chunk")]
    hex32 := fun _ => "sum"
    p6_readiness_required := true
    release_canary_ratio := 1 / 20
    release_canary_duration_min := 30
    rollback_max_minutes := 30
    set_order := List.dedup
    set_order_perm := fun _ => .refl _ }

def tenant_replay : ReplayArgs :=
  ⟨"release", "tenant", "trace", "project", "supplier", "bid", true, "approve"⟩

/-- The parse job of a replay that passed cannot be cancelled away. -/
theorem passed_replay_keeps_its_job :
    ∃ job, (after strict_release (after strict_release Desk.start [.replay tenant_replay])
      [.op (.cancel_job "job_aaa" "tenant"), .replay tenant_replay]).world.store.jobs.get?
        "job_aaa" = some job ∧ job.status = .succeeded := by
  have hrun : ((after strict_release Desk.start
      [.replay tenant_replay]).releases.release_replay_runs.get? "rpy_").map
        (fun run => (run.parse_job_id, run.passed)) = some ("job_aaa", true) := by decide +kernel
  obtain ⟨run, hrun, hfields⟩ := Option.map_eq_some_iff.1 hrun
  rw [Prod.mk.injEq] at hfields
  obtain ⟨-, htrue⟩ := recorded_replays_stay_true strict_release [.replay tenant_replay]
    [.op (.cancel_job "job_aaa" "tenant"), .replay tenant_replay] "rpy_" run hrun _ (after_mem _)
  obtain ⟨job, hjob, -, -, hend⟩ := htrue.parse
  have hsucceeded := htrue.passed hfields.2
  rw [hfields.1] at hjob
  exact ⟨job, hjob, (hend (.inl hsucceeded)).trans hsucceeded⟩

/-! ## The readiness -/

/-- The assessment is the one of a pipeline with these arguments and this outcome. -/
structure Assessed (args : ReadinessArgs) (data : PipelineData) (found : Readiness) : Prop where
  assessment_id : found.assessment_id = data.readiness_assessment_id
  release_id : found.release_id = args.release_id
  tenant_id : found.tenant_id = args.tenant_id
  dataset_version : found.dataset_version = args.dataset_version.getD ""
  gate_results : found.gate_results = normalized_gate_results args.gate_results
  replay_passed : found.replay_passed = args.replay_passed
  admitted : found.admitted = data.admitted
  failed_checks : found.failed_checks = data.failed_checks

theorem pipeline_data.assessed (env : ReleaseEnv) (args : ReadinessArgs) (pipeline_id id : String) :
    Assessed args (pipeline_data env args pipeline_id (some (readiness args id)))
      (readiness args id) := by
  have houtcome : ∀ found data, data = pipeline_data env args pipeline_id (some found) →
      found.assessment_id = data.readiness_assessment_id ∧ found.admitted = data.admitted ∧
        found.failed_checks = data.failed_checks := by
    rintro found data rfl
    exact ⟨rfl, rfl, rfl⟩
  obtain ⟨hid, hadmitted, hchecks⟩ := houtcome (readiness args id) _ rfl
  exact ⟨hid, rfl, rfl, rfl, rfl, rfl, hadmitted, hchecks⟩

theorem pipeline_data.ready (env : ReleaseEnv) (args : ReadinessArgs) (pipeline_id : String)
    (found : Option Readiness) :
    (pipeline_data env args pipeline_id found).stage = "release_ready" ↔
      (pipeline_data env args pipeline_id found).admitted = true := by
  simp only [pipeline_data]
  cases (found.map (fun data => data.admitted)).getD true <;> simp

theorem after_append (env : ReleaseEnv) (d : Desk) (calls : List Call) (call : Call) :
    store_release.after env d (calls ++ [call]) =
      (call.act env).final (store_release.after env d calls) := by
  unfold store_release.after
  rw [List.foldl_append]
  rfl

/-- Where the readiness is required, a pipeline that returns has stored an
assessment of its own, with the same outcome. The release is ready only if that
admits it, and it stays on record in every state after the call. -/
theorem ready_releases_stay_on_record (env : ReleaseEnv) (hreq : env.p6_readiness_required = true)
    (calls later : List Call) (args : ReadinessArgs) (data : PipelineData)
    (h : (execute_release_pipeline env args).result (after env Desk.start calls) = .ok data) :
    (data.stage = "release_ready" ↔ data.admitted = true) ∧
      ∀ t ∈ after env Desk.start (calls ++ [.pipeline args]) ::
          desks env (after env Desk.start (calls ++ [.pipeline args])) later,
        ∃ found, t.releases.release_readiness_assessments.get? data.readiness_assessment_id =
            some found ∧ Assessed args data found.toReadiness ∧ Verdict found.toReadiness := by
  have hd : Sound env (after env Desk.start calls) := sound_after calls sound_start
  obtain ⟨hsound, hrequired⟩ := (execute_release_pipeline.spec hd args).2 data h
  obtain ⟨id, pipeline_id, rfl, found, hfound, hdata⟩ := hrequired hreq
  have hassessed := pipeline_data.assessed env args pipeline_id id
  have hlast : after env Desk.start (calls ++ [.pipeline args]) =
      (execute_release_pipeline env args).final (after env Desk.start calls) :=
    (after_append env _ calls _).trans (final_bind_pure _)
  rw [hlast, ← hassessed.assessment_id]
  refine ⟨pipeline_data.ready env args _ _, fun t ht => ⟨found, ?_, ?_⟩⟩
  · rcases List.mem_cons.1 ht with rfl | hin
    · exact hfound
    · exact desks_keep (fun a b hstep ha => (keeps_step hstep).assessments _ found ha) later
        hsound hfound t hin
  · rw [hdata]
    exact ⟨hassessed, readiness.verdict args id⟩

def ready_args : ReadinessArgs :=
  ⟨"release", "tenant", "trace", some "v1.0.0", true, expected_gates.map fun name => (name, .int 1)⟩

def failed_replay : ReadinessArgs := { ready_args with replay_passed := false }

/-- A release that was admitted is still on record after one that was not. -/
theorem admitted_release_stays_on_record :
    ∃ found, (after strict_release (after strict_release Desk.start [.pipeline ready_args])
      [.pipeline failed_replay]).releases.release_readiness_assessments.get? "ra_a" =
        some found ∧ found.admitted = true := by
  have hok : ((execute_release_pipeline strict_release ready_args).result
      (after strict_release Desk.start [])).toOption.map
        (fun data => (data.readiness_assessment_id, data.admitted)) = some ("ra_a", true) := by
    decide +kernel
  obtain ⟨data, hdata, hfields⟩ := Option.map_eq_some_iff.1 hok
  rw [Prod.mk.injEq] at hfields
  obtain ⟨-, hrecord⟩ := ready_releases_stay_on_record strict_release rfl []
    [.pipeline failed_replay] ready_args data (ok_of_toOption hdata)
  obtain ⟨found, hfound, hassessed, -⟩ := hrecord _ (after_mem _)
  rw [hfields.1] at hfound
  exact ⟨found, hfound, hassessed.admitted.trans hfields.2⟩

/-! ## The rollout -/

/-- The plan of a call, if it is one for the release. -/
def plan_of (release_id : String) : Call → Option PlanArgs
  | .plan args => if args.release_id = release_id then some args else none
  | _ => none

/-- The last plan of a release, whichever tenant made it. -/
def last_plan (release_id : String) (calls : List Call) : Option PlanArgs :=
  (calls.filterMap (plan_of release_id)).getLast?

/-- The program leaves the policies as they are. -/
abbrev KeepsPolicies (m : ReleaseAct α) : Prop :=
  stepwise.Keeps (fun d d' : Desk =>
    d'.releases.release_rollout_policies = d.releases.release_rollout_policies) m

theorem on_world.keeps_policies (m : Act α) : KeepsPolicies (on_world m) := fun d =>
  steps_zoomed rfl (fun _ _ _ => rfl) (keeps_true m d.world)

theorem run_release_replay_e2e.keeps_policies (env : ReleaseEnv) (args : ReplayArgs) :
    KeepsPolicies (run_release_replay_e2e env args) :=
  keeps_bind (on_world.keeps_policies _) fun _ => keeps_bind (on_world.keeps_policies _) fun _ =>
    keeps_bind (keeps_write fun _ => rfl) fun _ => keeps_bind (on_world.keeps_policies _) fun _ =>
      keeps_bind (on_world.keeps_policies _) fun _ => keeps_pure _

theorem evaluate_release_readiness.keeps_policies (env : ReleaseEnv) (args : ReadinessArgs) :
    KeepsPolicies (evaluate_release_readiness env args) := by
  have hassess : KeepsPolicies (assess env args) :=
    keeps_bind (on_world.keeps_policies _) fun _ => keeps_bind (on_world.keeps_policies _) fun _ =>
      keeps_bind (keeps_write fun _ => rfl) fun _ => keeps_bind (on_world.keeps_policies _)
        fun _ => keeps_pure _
  exact keeps_bind hassess fun _ => keeps_bind (on_world.keeps_policies _) fun _ => keeps_pure _

theorem execute_release_pipeline.keeps_policies (env : ReleaseEnv) (args : ReadinessArgs) :
    KeepsPolicies (execute_release_pipeline env args) := by
  have hrequired : KeepsPolicies (required_readiness env args) :=
    keeps_ite (keeps_bind (evaluate_release_readiness.keeps_policies env args)
      fun _ => keeps_pure _) (keeps_pure _)
  exact keeps_bind (on_world.keeps_policies _) fun _ => keeps_bind hrequired fun _ =>
    keeps_bind (on_world.keeps_policies _) fun _ => keeps_bind (on_world.keeps_policies _)
      fun _ => keeps_pure _

theorem same_policies {m : ReleaseAct α} (h : KeepsPolicies m) (d : Desk) :
    (m.final d).releases.release_rollout_policies = d.releases.release_rollout_policies :=
  h.final (fun _ => rfl) (fun _ _ _ h h' => h'.trans h) d

/-- A plan replaces the policy of its release, and no other. -/
theorem upsert_rollout_policy.plans (env : ReleaseEnv) (args : PlanArgs) (d : Desk) :
    ((upsert_rollout_policy env args).final d).releases.release_rollout_policies =
      d.releases.release_rollout_policies.set args.release_id
        (rollout_policy env args (env.clock d.world.draws)) := by
  have htime : (on_world (utcnow env.toEnv)).result d = .ok (env.clock d.world.draws) := rfl
  unfold upsert_rollout_policy
  rw [final_bind htime, final_on_world, final_bind (a := ()) rfl]
  exact same_policies (keeps_bind (on_world.keeps_policies _) fun _ => keeps_pure _) _

/-- The policies are those of the last plans. -/
def FollowsPlans (env : ReleaseEnv) (calls : List Call) (d : Desk) : Prop :=
  ∀ release_id, ∃ updated_at, d.releases.release_rollout_policies.get? release_id =
    (last_plan release_id calls).map fun plan => rollout_policy env plan updated_at

theorem last_plan_append (release_id : String) (calls : List Call) (call : Call) :
    last_plan release_id (calls ++ [call]) =
      (plan_of release_id call).or (last_plan release_id calls) := by
  unfold last_plan
  rw [List.filterMap_append, List.getLast?_append]
  cases h : plan_of release_id call <;> simp [h]

theorem follows_plans (env : ReleaseEnv) (calls : List Call) :
    FollowsPlans env calls (after env Desk.start calls) := by
  induction calls using List.reverseRecOn with
  | nil => exact fun release_id => ⟨0, rfl⟩
  | append_singleton calls call ih =>
    rw [after_append]
    have hsame : (∀ release_id, plan_of release_id call = none) →
        ((call.act env).final (after env Desk.start calls)).releases.release_rollout_policies =
          (after env Desk.start calls).releases.release_rollout_policies →
        FollowsPlans env (calls ++ [call]) ((call.act env).final (after env Desk.start calls)) := by
      intro hplan hpolicies release_id
      rw [hpolicies, last_plan_append, hplan, Option.none_or]
      exact ih release_id
    cases call with
    | op operation => exact hsame (fun _ => rfl) (same_policies (on_world.keeps_policies _) _)
    | replay args =>
      exact hsame (fun _ => rfl) (same_policies (keeps_bind
        (run_release_replay_e2e.keeps_policies env args) fun _ => keeps_pure _) _)
    | readiness args =>
      exact hsame (fun _ => rfl) (same_policies (keeps_bind
        (evaluate_release_readiness.keeps_policies env args) fun _ => keeps_pure _) _)
    | pipeline args =>
      exact hsame (fun _ => rfl) (same_policies (keeps_bind
        (execute_release_pipeline.keeps_policies env args) fun _ => keeps_pure _) _)
    | plan args =>
      intro release_id
      have hplans := upsert_rollout_policy.plans env args (after env Desk.start calls)
      have hfinal : ((Call.plan args).act env).final (after env Desk.start calls) =
          (upsert_rollout_policy env args).final (after env Desk.start calls) := final_bind_pure _
      rw [hfinal, hplans, Dict.get?_set, last_plan_append, plan_of]
      by_cases heq : args.release_id = release_id
      · rw [if_pos heq.symm, if_pos heq]
        exact ⟨_, rfl⟩
      · rw [if_neg (Ne.symm heq), if_neg heq, Option.none_or]
        exact ih release_id

/-- The decision is the one of the plan: the tenant and the size must both be
on its lists, blanks around a name aside. -/
structure Decides (plan : PlanArgs) (tenant_id project_size : String) (high_risk : Bool)
    (decision : RolloutDecision) : Prop where
  admitted : decision.admitted = true ↔ tenant_id ∈ stripped plan.tenant_whitelist ∧
    project_size ∈ stripped plan.enabled_project_sizes
  matched_whitelist : decision.matched_whitelist = true ↔
    tenant_id ∈ stripped plan.tenant_whitelist
  force_hitl : decision.force_hitl = true ↔
    high_risk = true ∧ plan.high_risk_hitl_enforced = true
  reasons : decision.admitted = true ↔ decision.reasons = []

theorem mem_sorted_set {x : String} {l : List String} : x ∈ sorted_set l ↔ x ∈ l := by
  rw [sorted_set, List.mem_insertionSort, List.mem_dedup]

theorem mem_sorted_sizes {x : String} {l : List String} : x ∈ sorted_sizes env l ↔ x ∈ l := by
  rw [sorted_sizes, List.mem_insertionSort, (env.set_order_perm l).mem_iff, List.mem_dedup]

theorem rollout_decision.decides (plan : PlanArgs) (updated_at : Int)
    (release_id tenant_id project_size : String) (high_risk : Bool) :
    Decides plan tenant_id project_size high_risk
      (rollout_decision release_id tenant_id project_size high_risk
        (rollout_policy env plan updated_at)) := by
  refine ⟨?_, ?_, ?_, ?_⟩
  · simp [rollout_decision, rollout_policy, mem_sorted_set, mem_sorted_sizes]
  · simp [rollout_decision, rollout_policy, mem_sorted_set]
  · simp [rollout_decision, rollout_policy]
  · simp [rollout_decision]

/-- After any calls, a rollout is decided by the last plan of the release, and
without one there is no decision. -/
theorem rollout_follows_the_last_plan (env : ReleaseEnv) (calls : List Call)
    (release_id tenant_id project_size : String) (high_risk : Bool) :
    (last_plan release_id calls = none →
      (decide_rollout release_id tenant_id project_size high_risk).result
        (after env Desk.start calls) = .error (.api ⟨"RELEASE_POLICY_NOT_FOUND",
          "release rollout policy not found", "validation", false, 404⟩)) ∧
    (∀ plan, last_plan release_id calls = some plan → ∃ decision,
      (decide_rollout release_id tenant_id project_size high_risk).result
        (after env Desk.start calls) = .ok decision ∧
          Decides plan tenant_id project_size high_risk decision) := by
  obtain ⟨updated_at, hpolicy⟩ := follows_plans env calls release_id
  unfold decide_rollout
  rw [result_read]
  refine ⟨fun hnone => ?_, fun plan hplan => ?_⟩
  · rw [hnone, Option.map_none] at hpolicy
    rw [hpolicy]
    rfl
  · rw [hplan, Option.map_some] at hpolicy
    rw [hpolicy]
    exact ⟨_, rfl, rollout_decision.decides plan updated_at _ _ _ _⟩

end bid_evaluation.release_runs
