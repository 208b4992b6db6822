-- The laws of the gate before the routes: redaction leaves no secret at any
-- depth, what is logged of a refused request has none and keeps the audit log
-- verifiable, and no request changes the data of a tenant without its token.
import BidEvaluation.AuditLaws
import BidEvaluation.Lib.Gives
import BidEvaluation.Security

open dict_lib stepwise hash_chain.Reading bid_evaluation.values bid_evaluation.audit_logs
  bid_evaluation.audit_laws bid_evaluation.security
open bid_evaluation.operations (calm_env)

namespace bid_evaluation.security_laws

variable {lower : String → String} {g : SecurityEnv} {cfg : JwtSecurityConfig}

/-! ## What is in a value -/

/-- The value itself, or one at any depth in it. -/
inductive Within : PyVal → PyVal → Prop where
  | here (v : PyVal) : Within v v
  | item {items : List PyVal} {x v : PyVal} (hx : x ∈ items) (h : Within v x) :
      Within v (.list items)
  | entry {entries : PyDict} {key : String} {x v : PyVal} (hx : (key, x) ∈ entries)
      (h : Within v x) : Within v (.dict entries)

/-- The value is no credential, and hides what stands under a sensitive key. -/
def Harmless (lower : String → String) : PyVal → Prop
  | .str value => is_credential lower value = false
  | .dict entries => ∀ key item, (key, item) ∈ entries → lower key ∈ sensitive_keys →
      item = .str redacted_text
  | _ => True

/-- Nothing in the value is a secret. -/
def Clean (lower : String → String) (v : PyVal) : Prop := ∀ x, Within x v → Harmless lower x

theorem clean_list {items : List PyVal} :
    Clean lower (.list items) ↔ ∀ x ∈ items, Clean lower x := by
  refine ⟨fun h x hx y hy => h y (.item hx hy), fun h y hy => ?_⟩
  cases hy with
  | here => trivial
  | item hx hy => exact h _ hx y hy

theorem clean_dict {entries : PyDict} : Clean lower (.dict entries) ↔
    ∀ key item, (key, item) ∈ entries →
      (lower key ∈ sensitive_keys → item = .str redacted_text) ∧ Clean lower item := by
  refine ⟨fun h key item hin => ⟨fun hkey => h _ (.here _) key item hin hkey,
    fun y hy => h y (.entry hin hy)⟩, fun h y hy => ?_⟩
  cases hy with
  | here => exact fun key item hin => (h key item hin).1
  | entry hx hy => exact (h _ _ hx).2 y hy

theorem clean_str {value : String} :
    Clean lower (.str value) ↔ is_credential lower value = false := by
  refine ⟨fun h => h _ (.here _), fun h y hy => ?_⟩
  cases hy with
  | here => exact h

theorem clean_redacted_text : Clean lower (.str redacted_text) := by
  rw [clean_str]
  have hshort : decide (24 ≤ redacted_text.length) = false := by decide
  unfold is_credential
  rw [hshort, Bool.false_and]

/-! ## Redaction -/

mutual

theorem redact_sensitive.clean (lower : String → String) (v : PyVal) :
    Clean lower (redact_sensitive lower v) := by
  cases v with
  | dict entries => exact clean_dict.2 (redact_entries.clean lower entries)
  | list items => exact clean_list.2 (redact_items.clean lower items)
  | str value =>
    unfold redact_sensitive
    split
    · exact clean_redacted_text
    · rename_i hplain
      exact clean_str.2 (Bool.not_eq_true _ ▸ hplain)
  | none => intro x hx; cases hx; trivial
  | bool b => intro x hx; cases hx; trivial
  | int n => intro x hx; cases hx; trivial
  | float q => intro x hx; cases hx; trivial

theorem redact_items.clean (lower : String → String) (items : List PyVal) :
    ∀ x ∈ redact_items lower items, Clean lower x := by
  cases items with
  | nil => exact fun x hx => absurd hx List.not_mem_nil
  | cons item rest =>
    intro x hx
    rcases List.mem_cons.1 hx with rfl | hin
    · exact redact_sensitive.clean lower item
    · exact redact_items.clean lower rest x hin

theorem redact_entries.clean (lower : String → String) (entries : PyDict) :
    ∀ key x, (key, x) ∈ redact_entries lower entries →
      (lower key ∈ sensitive_keys → x = .str redacted_text) ∧ Clean lower x := by
  cases entries with
  | nil => exact fun key x hx => absurd hx List.not_mem_nil
  | cons entry rest =>
    obtain ⟨name, item⟩ := entry
    intro key x hx
    rcases List.mem_cons.1 hx with heq | hin
    · cases heq
      split
      · exact ⟨fun _ => rfl, clean_redacted_text⟩
      · rename_i hplain
        exact ⟨fun hkey => absurd hkey hplain, redact_sensitive.clean lower item⟩
    · exact redact_entries.clean lower rest key x hin

end

mutual

theorem redact_sensitive.keeps (lower : String → String) (v : PyVal) (h : Clean lower v) :
    redact_sensitive lower v = v := by
  cases v with
  | dict entries =>
    unfold redact_sensitive
    rw [redact_entries.keeps lower entries (clean_dict.1 h)]
  | list items =>
    unfold redact_sensitive
    rw [redact_items.keeps lower items (clean_list.1 h)]
  | str value =>
    unfold redact_sensitive
    rw [clean_str.1 h]
    rfl
  | none => rfl
  | bool b => rfl
  | int n => rfl
  | float q => rfl

theorem redact_items.keeps (lower : String → String) (items : List PyVal)
    (h : ∀ x ∈ items, Clean lower x) : redact_items lower items = items := by
  cases items with
  | nil => rfl
  | cons item rest =>
    unfold redact_items
    rw [redact_sensitive.keeps lower item (h item List.mem_cons_self),
      redact_items.keeps lower rest fun x hx => h x (List.mem_cons_of_mem item hx)]

theorem redact_entries.keeps (lower : String → String) (entries : PyDict)
    (h : ∀ key x, (key, x) ∈ entries →
      (lower key ∈ sensitive_keys → x = .str redacted_text) ∧ Clean lower x) :
    redact_entries lower entries = entries := by
  cases entries with
  | nil => rfl
  | cons entry rest =>
    obtain ⟨name, item⟩ := entry
    obtain ⟨hsecret, hclean⟩ := h name item List.mem_cons_self
    unfold redact_entries
    rw [redact_entries.keeps lower rest fun key x hx => h key x (List.mem_cons_of_mem _ hx)]
    split
    · rename_i hkey
      rw [hsecret hkey]
    · rw [redact_sensitive.keeps lower item hclean]

end

/-- Whatever the value, redaction leaves nothing that is a secret at any depth,
and a value that has no secret is left as it is. So twice is once. -/
theorem redaction_is_clean_and_stable (lower : String → String) (v : PyVal) :
    Clean lower (redact_sensitive lower v) ∧ (Clean lower v ↔ redact_sensitive lower v = v) ∧
      redact_sensitive lower (redact_sensitive lower v) = redact_sensitive lower v := by
  have hclean := redact_sensitive.clean lower v
  refine ⟨hclean, ⟨redact_sensitive.keeps lower v, fun heq => ?_⟩,
    redact_sensitive.keeps lower _ hclean⟩
  rw [heq] at hclean
  exact hclean

/-! ## The audit log -/

/-- The log verifies, and no row of it shows a secret of the request it is about. -/
structure Vouched (g : SecurityEnv) (audit_logs : List PyDict) : Prop where
  chained : (reading g.env g.sha256).Chained "" audit_logs
  clean : ∀ row ∈ audit_logs, Clean g.lower (PyDict.get row "headers")

/-- An append adds one row, with the headers of its entry. -/
theorem append_audit_log.row (audit_logs : List PyDict) (hex now : String) (log : PyDict) :
    ∃ row, append_audit_log g.env g.sha256 audit_logs hex now log = audit_logs ++ [row] ∧
      PyDict.get row "headers" = PyDict.get log "headers" := by
  refine ⟨_, rfl, ?_⟩
  unfold PyDict.get PyDict.getD PyDict.set
  rw [lookupEntry_setEntry, if_neg (by decide), lookupEntry_setEntry, if_neg (by decide),
    default_field_other _ (by decide), default_field_other _ (by decide)]

/-! ## A gate with a token of one tenant -/

def header_part : String := "eyJhbGciOiJIUzI1NiIsInR5cCI6IkpXVCJ9"

def payload_part : String :=
  "eyJ0ZW5hbnRfaWQiOiJ0ZW5hbnRfYSIsInN1YiI6InVzZXIiLCJleHAiOjQxMDI0NDQ4MDB9"

def tenant_a_claims : PyDict :=
  [("tenant_id", .str "tenant_a"), ("sub", .str "user"), ("exp", .int 4102444800)]

def tenant_a_token : String :=
  header_part ++ "." ++ payload_part ++ ".d4zih0wAp_NwPdxnANcXcN1Liv_C1sP60-sFjp6I9nY"

/-- An outside that knows one token, signed with one secret. -/
def gate_env : SecurityEnv where
  env := calm_env
  sha256 text := text
  lower := String.map Char.toLower
  upper := String.map Char.toUpper
  load_part part :=
    if part = header_part then .loaded (.dict [("alg", .str "HS256"), ("typ", .str "JWT")])
    else if part = payload_part then .loaded (.dict tenant_a_claims) else .raises
  signing_key _ _ := .jwt_error
  jwt_decode token key args :=
    if token = tenant_a_token ∧ key = "secret" ∧ "HS256" ∈ args.algorithms then
      .returned tenant_a_claims
    else .jwt_error
  hex12 := Uuid4.unary.hex12
  hex32 := Uuid4.unary.hex12
  now := Uuid4.unary.hex12

def gate_cfg : JwtSecurityConfig where
  enabled := true
  issuer := ""
  audience := ""
  shared_secret := "secret"
  jwks_url := ""
  alg := "HS256"
  required_claims := ["tenant_id", "sub", "exp"]
  tenant_claim := "tenant_id"
  log_redaction_enabled := true
  trace_id_strict_required := false

/-- A request with the token of `tenant_a`, for the tenant of its header. -/
def request_for (tenant_id : String) : Request :=
  ⟨"/api/v1/projects",
    [("x-tenant-id", tenant_id), ("authorization", "Bearer " ++ tenant_a_token)]⟩

/-- A route that notes down each tenant that it was called for. -/
def note_tenant (state : RequestState) (_ : Request) : Handle (List String) Unit :=
  write fun b => { b with data := b.data ++ [tenant_id_from_request state] }

def notes_of (tenant_id : String) (data : List String) : List String :=
  data.filter (· = tenant_id)

/-- A request that the gate refuses, for another tenant than that of its token,
and one that it lets through. -/
def two_requests : List Request := [request_for "tenant_b", request_for "tenant_a"]

/-- What a row of the log shows of the token. -/
def logged_authorization (row : PyDict) : Option String :=
  match PyDict.get row "headers" with
  | .dict headers => some ((PyDict.get headers "authorization").toStr gate_env.env.repr)
  | _ => none

theorem note_tenant.log (state : RequestState) (request : Request) :
    Keeps (fun b b' => Vouched g b.audit_logs → Vouched g b'.audit_logs)
      (note_tenant state request) :=
  keeps_write fun _ h => h

section gate

variable {σ ρ : Type}

/-- What a write of the middleware itself can do: the data stays, and a log that
is vouched for stays so, unless redaction is switched off. -/
structure Outside (g : SecurityEnv) (cfg : JwtSecurityConfig) (b b' : Backend σ) : Prop where
  data : b'.data = b.data
  log : cfg.log_redaction_enabled = true → Vouched g b.audit_logs → Vouched g b'.audit_logs

theorem draw.outside : Keeps (Outside g cfg) (security.draw : Handle σ Nat) :=
  keeps_bind keeps_read fun _ => keeps_bind (keeps_write fun _ => ⟨rfl, fun _ h => h⟩)
    fun _ => keeps_pure _

theorem append_security_audit_log.outside (request : Request) (state : RequestState)
    (action code detail : String) : Keeps (Outside g cfg)
      (append_security_audit_log g cfg request state action code detail : Handle σ Unit) := by
  refine keeps_bind draw.outside fun hex => keeps_bind draw.outside fun now =>
    keeps_write fun b => ⟨rfl, fun hredact h => ?_⟩
  dsimp only
  obtain ⟨row, hrow, hheaders⟩ := append_audit_log.row (g := g) b.audit_logs (g.hex12 hex)
    (g.now now) _
  refine ⟨chained_append_audit_log h.chained _ _ _, ?_⟩
  rw [hrow]
  intro found hfound
  rcases List.mem_append.1 hfound with hin | hin
  · exact h.clean found hin
  · rw [List.mem_singleton.1 hin, hheaders, if_pos hredact]
    exact redact_sensitive.clean g.lower _

variable (cfg) in
theorem respond.outside (state : RequestState) (reply : Reply ρ) :
    Keeps (Outside g cfg) (respond g state reply : Handle σ (Response ρ)) :=
  keeps_ite (keeps_bind draw.outside fun _ => keeps_pure _) (keeps_pure _)

theorem handle_api_error.outside (request : Request) (state : RequestState) (e : ApiError) :
    Keeps (Outside g cfg) (handle_api_error g cfg request state e : Handle σ (Reply ρ)) := by
  unfold handle_api_error
  split
  · exact keeps_bind (append_security_audit_log.outside request state _ _ _) fun _ => keeps_pure _
  · exact keeps_pure _

theorem block.outside (request : Request) (state : RequestState) (e : PyErr) :
    Keeps (Outside g cfg) (block g cfg request state e : Handle σ (Response ρ)) := by
  cases e with
  | api e =>
    exact keeps_bind (append_security_audit_log.outside request state _ _ _)
      fun _ => respond.outside cfg state _
  | graph_interrupt => exact keeps_raise _
  | raised class_name text => exact keeps_raise _

variable (cfg) in
theorem initial_state.outside (request : Request) :
    Keeps (Outside g cfg) (initial_state g request : Handle σ RequestState) :=
  keeps_bind draw.outside fun _ => keeps_bind draw.outside fun _ => keeps_pure _

/-- What the middleware keeps, and the route in each state that it is called
with, every write of the request keeps. -/
theorem serve.keeps {R : Backend σ → Backend σ → Prop}
    {route : RequestState → Request → Handle σ ρ} {request : Request}
    (hout : ∀ b b', Outside g cfg b b' → R b b')
    (hroute : ∀ start state, authorize g cfg request start = .ok state →
      Keeps R (route state request)) : Keeps R (serve g cfg route request) := by
  refine keeps_bind ((initial_state.outside cfg request).mono hout) fun start => ?_
  refine keeps_ite ((respond.outside cfg _ _).mono hout) ?_
  cases hauthorize : authorize g cfg request start with
  | error refusal =>
    obtain ⟨e, state⟩ := refusal
    exact (block.outside request state e).mono hout
  | ok state =>
    refine keeps_catching (keeps_bind ?_ fun reply => ?_) fun e => ?_
    · refine keeps_catching (keeps_bind (hroute start state hauthorize) fun _ => keeps_pure _)
        fun e => ?_
      cases e with
      | api e => exact (handle_api_error.outside request state e).mono hout
      | graph_interrupt => exact keeps_raise _
      | raised class_name text => exact keeps_raise _
    · exact (respond.outside cfg _ _).mono hout
    · exact (block.outside request state e).mono hout

/-- What every request keeps is so in every state of a run. -/
theorem served_keep {I : Backend σ → Prop} {route : RequestState → Request → Handle σ ρ}
    {requests : List Request} (hkeep : ∀ request ∈ requests,
      Keeps (fun b b' => I b → I b') (serve g cfg route request)) {b : Backend σ} (hb : I b) :
    ∀ t ∈ served g cfg route b requests, I t := by
  induction requests generalizing b with
  | nil => exact fun t ht => absurd ht List.not_mem_nil
  | cons request rest ih =>
    have hsteps := hkeep request List.mem_cons_self b
    intro t ht
    rcases List.mem_append.1 ht with hin | hin
    · exact hsteps.invariant (fun _ _ h => h) hb t hin
    · exact ih (fun other hother => hkeep other (List.mem_cons_of_mem _ hother))
        (hsteps.invariant_last (fun _ _ h => h) hb) t hin

/-! ## The token of the gate -/

theorem word_of_ne {text : String} (h : text ≠ "") : word text = some text := if_neg h

/-- The text of a part of a token has no dot in it, and no space. -/
structure TokenText (text : String) : Prop where
  dotless : '.' ∉ text.toList
  solid : ∀ c ∈ text.toList, is_space c = false

/-- The letters are given apart, as a long text is slow to read in a proof. -/
theorem tokenText_of {text : String} {letters : List Char} (h : text = String.ofList letters)
    (hdot : '.' ∉ letters) (hsolid : ∀ c ∈ letters, is_space c = false) : TokenText text := by
  subst h
  constructor
  · rwa [String.toList_ofList]
  · rwa [String.toList_ofList]

theorem letters_differ {a b : String} {letters letters' : List Char}
    (ha : a = String.ofList letters) (hb : b = String.ofList letters') (h : letters ≠ letters') :
    a ≠ b := by
  subst ha hb
  exact fun heq => h (String.ofList_injective heq)

theorem strip_solid {text : String} (h : ∀ c ∈ text.toList, is_space c = false) :
    strip text = text := by
  have hkeep : ∀ letters : List Char, (∀ c ∈ letters, is_space c = false) →
      letters.dropWhile is_space = letters := by
    intro letters hsolid
    cases letters with
    | nil => rfl
    | cons c rest => exact List.dropWhile_cons_of_neg (by simp [hsolid c List.mem_cons_self])
  unfold strip
  rw [hkeep _ h, hkeep _ fun c hc => h c (List.mem_reverse.1 hc), List.reverse_reverse,
    String.ofList_toList]

theorem bearer_token_solid {token : String} (h : ∀ c ∈ token.toList, is_space c = false) :
    bearer_token ("Bearer " ++ token) = some token := by
  have hletters : ("Bearer " ++ token).toList =
      ['B', 'e', 'a', 'r', 'e', 'r', ' '] ++ token.toList := by
    rw [String.toList_append]
    exact congrArg (· ++ token.toList) (by decide)
  have hstart : starts_with ("Bearer " ++ token) "Bearer " = true := by
    unfold starts_with
    rw [String.toList_append, List.isPrefixOf_iff_prefix]
    exact List.prefix_append _ _
  unfold bearer_token
  rw [if_pos hstart, hletters]
  change some (strip (String.ofList token.toList)) = some token
  rw [String.ofList_toList, strip_solid h]

theorem split_dots_parts {header payload signature : String} (hheader : TokenText header)
    (hpayload : TokenText payload) (hsignature : TokenText signature) :
    split_dots (header ++ "." ++ payload ++ "." ++ signature) = [header, payload, signature] := by
  have hletters : (header ++ "." ++ payload ++ "." ++ signature).toList =
      header.toList ++ '.' :: (payload.toList ++ '.' :: signature.toList) := by
    have hdot : ".".toList = ['.'] := by decide
    simp only [String.toList_append, hdot, List.append_assoc, List.cons_append, List.nil_append]
  unfold split_dots
  rw [hletters, List.splitOn_append_cons_self_of_not_mem hheader.dotless,
    List.splitOn_append_cons_self_of_not_mem hpayload.dotless,
    List.splitOn_eq_singleton hsignature.dotless]
  simp only [List.map_cons, List.map_nil, String.ofList_toList]

theorem parse_token_parts_ok {token header payload signature : String} {head body : PyDict}
    (hsplit : split_dots token = [header, payload, signature])
    (hhead : g.load_part header = .loaded (.dict head))
    (hbody : g.load_part payload = .loaded (.dict body)) :
    parse_token_parts g token = .ok (head, body) := by
  unfold parse_token_parts
  rw [hsplit]
  dsimp only
  rw [hhead, hbody]

theorem decode_token_ok {token : String} {claims : PyDict}
    (hhs : ¬starts_with cfg.alg "RS" = true) (hsecret : cfg.shared_secret ≠ "")
    (hdecode : g.jwt_decode token cfg.shared_secret (decode_args cfg) = .returned claims) :
    decode_token g cfg token = .ok claims := by
  unfold decode_token
  rw [if_neg hhs, if_neg hsecret, hdecode]
  rfl

theorem ok_bind {α β ε : Type} (a : α) (f : α → Except ε β) : (Except.ok a >>= f) = f a := rfl

theorem parse_and_validate_bearer_token_ok {token : String} {head body claims : PyDict}
    {auth_ctx : AuthContext} (hsome : token ≠ "") (hsolid : ∀ c ∈ token.toList, is_space c = false)
    (hparts : parse_token_parts g token = .ok (head, body))
    (halg : g.upper ((PyDict.getD head "alg" (.str "")).toStr g.env.repr) = cfg.alg)
    (hdecode : decode_token g cfg token = .ok claims)
    (hcontext : auth_context g cfg claims = .ok auth_ctx) :
    parse_and_validate_bearer_token g cfg (some ("Bearer " ++ token)) = .ok auth_ctx := by
  have hbearer : "Bearer " ++ token ≠ "" := fun hempty =>
    hsome (String.append_eq_empty_iff.1 hempty).2
  unfold parse_and_validate_bearer_token
  rw [Option.bind_some, word_of_ne hbearer]
  dsimp only
  rw [bearer_token_solid hsolid]
  dsimp only
  rw [if_neg hsome]
  unfold validate_token
  rw [hparts]
  refine (if_neg (not_not.2 halg)).trans ?_
  rw [hdecode, ok_bind]
  exact hcontext

theorem header_part_text : TokenText header_part :=
  tokenText_of rfl (by decide) (by decide)

theorem payload_part_text : TokenText payload_part :=
  tokenText_of rfl (by decide) (by decide)

def signature_part : String := "d4zih0wAp_NwPdxnANcXcN1Liv_C1sP60-sFjp6I9nY"

theorem signature_part_text : TokenText signature_part :=
  tokenText_of rfl (by decide) (by decide)

theorem tenant_a_token_eq :
    tenant_a_token = header_part ++ "." ++ payload_part ++ "." ++ signature_part := by
  have hend : ".d4zih0wAp_NwPdxnANcXcN1Liv_C1sP60-sFjp6I9nY" = "." ++ signature_part :=
    @String.ofList_append ['.'] _
  unfold tenant_a_token
  rw [hend, ← String.append_assoc]

theorem tenant_a_token_solid : ∀ c ∈ tenant_a_token.toList, is_space c = false := by
  have hdot : ∀ c ∈ ".".toList, is_space c = false := by decide
  intro c hc
  simp only [tenant_a_token_eq, String.toList_append, List.mem_append] at hc
  rcases hc with (((hc | hc) | hc) | hc) | hc
  · exact header_part_text.solid c hc
  · exact hdot c hc
  · exact payload_part_text.solid c hc
  · exact hdot c hc
  · exact signature_part_text.solid c hc

theorem load_header_part : gate_env.load_part header_part =
    .loaded (.dict [("alg", .str "HS256"), ("typ", .str "JWT")]) := by
  unfold gate_env
  dsimp only
  rw [if_pos rfl]

theorem load_payload_part : gate_env.load_part payload_part = .loaded (.dict tenant_a_claims) := by
  have hpayload : payload_part ≠ header_part := letters_differ rfl rfl (by decide)
  unfold gate_env
  dsimp only
  rw [if_neg hpayload, if_pos rfl]

/-- The gate lets the token through. -/
theorem tenant_a_token_accepted :
    parse_and_validate_bearer_token gate_env gate_cfg (some ("Bearer " ++ tenant_a_token)) =
      .ok ⟨"tenant_a", "user", tenant_a_claims⟩ := by
  have hsplit : split_dots tenant_a_token = [header_part, payload_part, signature_part] := by
    rw [tenant_a_token_eq]
    exact split_dots_parts header_part_text payload_part_text signature_part_text
  have hsome : tenant_a_token ≠ "" := by
    rw [tenant_a_token_eq]
    exact fun hempty => absurd (String.append_eq_empty_iff.1 hempty).2
      (letters_differ rfl rfl (by decide))
  have hanswer : gate_env.jwt_decode tenant_a_token gate_cfg.shared_secret (decode_args gate_cfg) =
      .returned tenant_a_claims := by
    unfold gate_env
    dsimp only
    rw [if_pos ⟨rfl, rfl, List.mem_cons_self⟩]
  have htenant : claim_text gate_env tenant_a_claims gate_cfg.tenant_claim = "tenant_a" := by
    decide
  have hsub : claim_text gate_env tenant_a_claims "sub" = "user" := by decide
  refine parse_and_validate_bearer_token_ok hsome tenant_a_token_solid
    (parse_token_parts_ok hsplit load_header_part load_payload_part) (by decide +kernel)
    (decode_token_ok (by decide) (by decide) hanswer) ?_
  unfold auth_context
  rw [htenant, hsub]
  exact if_neg (by decide)

/-- What the middleware knows of a request with the token. -/
def known_state (state : RequestState) : RequestState :=
  { state with auth_subject := "user", tenant_id := some "tenant_a" }

theorem request_for_authorization (tenant_id : String) :
    (request_for tenant_id).header "authorization" = some ("Bearer " ++ tenant_a_token) := rfl

theorem authorize_request_for {tenant_id : String} (hsome : tenant_id ≠ "")
    (state : RequestState) : authorize gate_env gate_cfg (request_for tenant_id) state =
      if tenant_id ≠ "tenant_a" then .error (.api tenant_mismatch, known_state state)
      else .ok (known_state state) := by
  have hpublic : is_public "/api/v1/projects" = true := by decide
  have htenant : ((request_for tenant_id).header "x-tenant-id").bind word = some tenant_id :=
    word_of_ne hsome
  unfold authorize
  rw [show (request_for tenant_id).path = "/api/v1/projects" from rfl, hpublic,
    show gate_cfg.enabled = true from rfl, Bool.and_self, if_pos rfl, request_for_authorization,
    tenant_a_token_accepted, htenant]
  rfl

theorem authorize_refused (state : RequestState) :
    authorize gate_env gate_cfg (request_for "tenant_b") state =
      .error (.api tenant_mismatch, known_state state) :=
  (authorize_request_for (by decide) state).trans (if_pos (by decide))

theorem authorize_admitted (state : RequestState) :
    authorize gate_env gate_cfg (request_for "tenant_a") state = .ok (known_state state) :=
  (authorize_request_for (by decide) state).trans (if_neg (by decide))

theorem serve_refused {route : RequestState → Request → Handle σ ρ} {request : Request}
    (htrace : lacks_trace cfg request = false) {e : PyErr}
    {refuse : RequestState → RequestState}
    (h : ∀ state, authorize g cfg request state = .error (e, refuse state)) :
    serve g cfg route request =
      initial_state g request >>= fun state => block g cfg request (refuse state) e := by
  unfold serve
  refine congrArg (Bind.bind (initial_state g request)) (funext fun state => ?_)
  rw [htrace, if_neg Bool.false_ne_true, h]

theorem serve_admitted {route : RequestState → Request → Handle σ ρ} {request : Request}
    (htrace : lacks_trace cfg request = false)
    {grant : RequestState → RequestState}
    (h : ∀ state, authorize g cfg request state = .ok (grant state)) :
    serve g cfg route request = initial_state g request >>= fun state =>
      catching (call_next g cfg route request (grant state) >>= respond g (grant state))
        (block g cfg request (grant state)) := by
  unfold serve
  refine congrArg (Bind.bind (initial_state g request)) (funext fun state => ?_)
  rw [htrace, if_neg Bool.false_ne_true, h]

/-- What the two requests leave: one row, without the token, and one note. -/
theorem two_requests_leave :
    (served gate_env gate_cfg note_tenant ⟨[], [], 0⟩ two_requests).getLast?.map
      (fun t => (t.audit_logs.map logged_authorization, t.data)) =
        some ([some redacted_text], ["tenant_a"]) := by
  have hrefused :=
    @serve_refused _ _ _ _ note_tenant (request_for "tenant_b") rfl _ _ authorize_refused
  have hadmitted :=
    @serve_admitted _ _ _ _ note_tenant (request_for "tenant_a") rfl _ authorize_admitted
  unfold two_requests
  simp only [served, hrefused, hadmitted]
  decide +kernel

/-! ## The log of what was refused -/

/-- A token that is accepted names a tenant. -/
theorem parse_and_validate_bearer_token.gives (authorization : Option String) :
    Gives (parse_and_validate_bearer_token g cfg authorization)
      fun auth_ctx => auth_ctx.tenant_id ≠ "" := by
  have hcontext : ∀ claims, Gives (auth_context g cfg claims)
      fun auth_ctx => auth_ctx.tenant_id ≠ "" := by
    intro claims
    unfold auth_context
    dsimp only
    split
    · exact gives_error
    · rename_i hne
      exact gives_ok.2 fun heq => hne (.inl heq)
  unfold parse_and_validate_bearer_token
  split
  · exact gives_error
  · split
    · exact gives_error
    · split
      · exact gives_error
      · refine gives_bind fun parts => ?_
        dsimp only
        split
        · exact gives_error
        · exact gives_bind fun claims => hcontext claims

/-- A request that reaches its route acts for the tenant of its token. -/
theorem authorize.tenant (hjwt : cfg.enabled = true) {request : Request}
    (hpublic : is_public request.path = true) {start state : RequestState}
    (h : authorize g cfg request start = .ok state) : ∃ auth_ctx,
      parse_and_validate_bearer_token g cfg (request.header "authorization") = .ok auth_ctx ∧
        tenant_id_from_request state = auth_ctx.tenant_id := by
  unfold authorize at h
  rw [hjwt, hpublic, Bool.and_self, if_pos rfl] at h
  cases hparse : parse_and_validate_bearer_token g cfg (request.header "authorization") with
  | error e =>
    rw [hparse] at h
    cases h
  | ok auth_ctx =>
    have hne := parse_and_validate_bearer_token.gives _ auth_ctx hparse
    have hstate : state.tenant_id = some auth_ctx.tenant_id := by
      rw [hparse] at h
      dsimp only at h
      split at h
      · cases h
        rfl
      · split at h
        · cases h
        · cases h
          rfl
    refine ⟨auth_ctx, rfl, ?_⟩
    unfold tenant_id_from_request
    rw [hstate, Option.bind_some, word_of_ne hne]

/-- The route writes only to the part of the tenant that it acts for. -/
def Scoped {τ : Type} (part : String → σ → τ)
    (route : RequestState → Request → Handle σ ρ) : Prop :=
  ∀ state request tenant_id, tenant_id ≠ tenant_id_from_request state →
    Keeps (fun b b' : Backend σ => part tenant_id b'.data = part tenant_id b.data)
      (route state request)

theorem note_tenant.scoped : Scoped notes_of note_tenant := by
  intro state request tenant_id hne
  refine keeps_write fun b => ?_
  unfold notes_of
  dsimp only
  rw [List.filter_append, List.filter_singleton, decide_eq_false (Ne.symm hne), cond_false,
    List.append_nil]

end gate

end bid_evaluation.security_laws
