-- `security.py`, the middleware of `main.py` and what both use of
-- `routes/_deps.py`: who may send a request, for which tenant it acts, and
-- what the audit log keeps of a request that was refused.
import BidEvaluation.AuditLogs
import BidEvaluation.RetrievalQuery

open dict_lib stepwise bid_evaluation.values bid_evaluation.audit_logs
open bid_evaluation.core (Env)
open bid_evaluation.retrieval (contains)

namespace bid_evaluation.security

/-! ## The outside -/

/-- What `json.loads(_b64url_decode(part))` gives. -/
inductive TokenPart where
  | raises
  | loaded (value : PyVal)

/-- The arguments of `jwt.decode` beside the token and the key. -/
structure DecodeArgs where
  algorithms : List String
  require : List String
  issuer : Option String
  audience : Option String

/-- A call of PyJWT: it returned, or it raised one of its own errors. -/
inductive JwtAnswer (α : Type) where
  | returned (a : α)
  | jwt_error

structure SecurityEnv where
  env : Env
  sha256 : String → String
  lower : String → String
  upper : String → String
  load_part : String → TokenPart
  signing_key : (jwks_url token : String) → JwtAnswer String
  jwt_decode : (token key : String) → DecodeArgs → JwtAnswer PyDict
  hex12 : Nat → String
  hex32 : Nat → String
  now : Nat → String

/-! ## Redaction -/

def sensitive_keys : List String :=
  ["authorization", "token", "secret", "password", "api_key", "apikey", "access_token"]

def redacted_text : String := "***REDACTED***"

/-- A long text that looks like a credential. -/
def is_credential (lower : String → String) (value : String) : Bool :=
  24 ≤ value.length && ["sk-", "bearer ", "token"].any (contains (lower value))

mutual

def redact_sensitive (lower : String → String) : PyVal → PyVal
  | .dict entries => .dict (redact_entries lower entries)
  | .list items => .list (redact_items lower items)
  | .str value => if is_credential lower value then .str redacted_text else .str value
  | .none => .none
  | .bool b => .bool b
  | .int n => .int n
  | .float x => .float x

def redact_items (lower : String → String) : List PyVal → List PyVal
  | [] => []
  | x :: rest => redact_sensitive lower x :: redact_items lower rest

def redact_entries (lower : String → String) : PyDict → PyDict
  | [] => []
  | (key, item) :: rest =>
    (key, if lower key ∈ sensitive_keys then .str redacted_text else redact_sensitive lower item) ::
      redact_entries lower rest

end

/-! ## The token -/

structure JwtSecurityConfig where
  enabled : Bool
  issuer : String
  audience : String
  shared_secret : String
  jwks_url : String
  alg : String
  required_claims : List String
  tenant_claim : String
  log_redaction_enabled : Bool
  trace_id_strict_required : Bool

structure AuthContext where
  tenant_id : String
  subject : String
  claims : PyDict

def unauthorized (message : String) : Except PyErr α :=
  .error (.api ⟨"AUTH_UNAUTHORIZED", message, "security_sensitive", false, 401⟩)

/-- `text.startswith(start)`. -/
def starts_with (text start : String) : Bool := start.toList.isPrefixOf text.toList

/-- `token.split(".")`. -/
def split_dots (token : String) : List String := (token.toList.splitOn '.').map String.ofList

/-- The header and the payload of a token, of which only the header is used. -/
def parse_token_parts (g : SecurityEnv) (token : String) : Except PyErr (PyDict × PyDict) :=
  match split_dots token with
  | [header_raw, payload_raw, _] =>
    match g.load_part header_raw, g.load_part payload_raw with
    | .loaded (.dict header_obj), .loaded (.dict payload_obj) => .ok (header_obj, payload_obj)
    | _, _ => unauthorized "invalid token payload"
  | _ => unauthorized "invalid token format"

/-- `authorization[len("Bearer "):].strip()`, where the text starts so. -/
def bearer_token (authorization : String) : Option String :=
  if starts_with authorization "Bearer " then
    some (strip (String.ofList (authorization.toList.drop 7)))
  else none

def word (text : String) : Option String := if text = "" then none else some text

def decode_args (cfg : JwtSecurityConfig) : DecodeArgs where
  algorithms := [cfg.alg]
  require := cfg.required_claims
  issuer := word cfg.issuer
  audience := word cfg.audience

def claims_of : JwtAnswer PyDict → Except PyErr PyDict
  | .returned claims => .ok claims
  | .jwt_error => unauthorized "invalid token"

/-- The key comes from the settings, and its kind from the settings too. -/
def decode_token (g : SecurityEnv) (cfg : JwtSecurityConfig) (token : String) :
    Except PyErr PyDict :=
  if starts_with cfg.alg "RS" then
    if cfg.jwks_url = "" then unauthorized "jwks url not configured"
    else
      match g.signing_key cfg.jwks_url token with
      | .jwt_error => unauthorized "invalid token"
      | .returned key => claims_of (g.jwt_decode token key (decode_args cfg))
  else if cfg.shared_secret = "" then unauthorized "jwt shared secret not configured"
  else claims_of (g.jwt_decode token cfg.shared_secret (decode_args cfg))

/-- `str(claims.get(name) or "").strip()`. -/
def claim_text (g : SecurityEnv) (claims : PyDict) (name : String) : String :=
  strip (((PyDict.get claims name).or (.str "")).toStr g.env.repr)

def auth_context (g : SecurityEnv) (cfg : JwtSecurityConfig) (claims : PyDict) :
    Except PyErr AuthContext :=
  let tenant_id := claim_text g claims cfg.tenant_claim
  let subject := claim_text g claims "sub"
  if tenant_id = "" ∨ subject = "" then unauthorized "missing tenant or subject claim"
  else .ok ⟨tenant_id, subject, claims⟩

def validate_token (g : SecurityEnv) (cfg : JwtSecurityConfig) (token : String) :
    Except PyErr AuthContext := do
  let parts ← parse_token_parts g token
  let token_alg := g.upper ((PyDict.getD parts.1 "alg" (.str "")).toStr g.env.repr)
  if token_alg ≠ cfg.alg then unauthorized "unsupported jwt algorithm"
  else do
    let claims ← decode_token g cfg token
    auth_context g cfg claims

def parse_and_validate_bearer_token (g : SecurityEnv) (cfg : JwtSecurityConfig)
    (authorization : Option String) : Except PyErr AuthContext :=
  match authorization.bind word with
  | none => unauthorized "missing Authorization bearer token"
  | some authorization =>
    match bearer_token authorization with
    | none => unauthorized "invalid Authorization header"
    | some token =>
      if token = "" then unauthorized "empty bearer token" else validate_token g cfg token

/-! ## Requests -/

/-- The names of the headers are in lower case, as the server gives them. A
name may come more than once. -/
structure Request where
  path : String
  headers : List (String × String)

/-- `request.headers.get(name)` is the first of that name. -/
def Request.header (request : Request) (name : String) : Option String :=
  (request.headers.find? (fun h => h.1 = name)).map Prod.snd

/-- `dict(request.headers.items())` has the last of each name. -/
def Request.headers_obj (request : Request) : PyDict :=
  request.headers.foldl (fun d h => PyDict.set d h.1 (.str h.2)) []

/-- `request.state`. A tenant is there once the middleware has found one. -/
structure RequestState where
  trace_id : String
  request_id : String
  auth_subject : String
  tenant_id : Option String

def tenant_id_from_request (state : RequestState) : String :=
  match state.tenant_id.bind word with
  | none => "tenant_default"
  | some tenant_id => tenant_id

/-- The audit log, what else the routes write, and the draws of the middleware. -/
structure Backend (σ : Type) where
  audit_logs : List PyDict
  data : σ
  draws : Nat

abbrev Handle (σ α : Type) := Prog (Backend σ) PyErr α

section middleware

variable {σ ρ : Type}

def draw : Handle σ Nat := do
  let b ← read
  write (fun b => { b with draws := b.draws + 1 })
  pure b.draws

def append_security_audit_log (g : SecurityEnv) (cfg : JwtSecurityConfig) (request : Request)
    (state : RequestState) (action code detail : String) : Handle σ Unit := do
  let headers_obj := PyVal.dict request.headers_obj
  let headers_payload :=
    if cfg.log_redaction_enabled then redact_sensitive g.lower headers_obj else headers_obj
  let hex ← draw
  let now ← draw
  let log : PyDict :=
    [("audit_id", .str ("audit_" ++ g.hex12 hex)),
      ("tenant_id", .str (tenant_id_from_request state)), ("action", .str action),
      ("error_code", .str code), ("detail", .str detail), ("trace_id", .str state.trace_id),
      ("headers", headers_payload), ("occurred_at", .str (g.now now))]
  write (fun b => { b with
    audit_logs := append_audit_log g.env g.sha256 b.audit_logs (g.hex12 hex) (g.now now) log })

/-- What a route returns, or the error that is answered for it. -/
inductive Reply (ρ : Type) where
  | returned (data : ρ)
  | refused (e : ApiError) (trace_id : String)

structure Response (ρ : Type) where
  reply : Reply ρ
  x_trace_id : String
  x_request_id : String

/-- The errors of a route that go into the audit log. -/
def security_codes : List String :=
  ["AUTH_UNAUTHORIZED", "AUTH_FORBIDDEN", "TENANT_SCOPE_VIOLATION", "APPROVAL_REQUIRED"]

def handle_api_error (g : SecurityEnv) (cfg : JwtSecurityConfig) (request : Request)
    (state : RequestState) (e : ApiError) : Handle σ (Reply ρ) := do
  if e.code ∈ security_codes then
    append_security_audit_log g cfg request state "security_blocked" e.code e.message
  pure (.refused e state.trace_id)

/-- `call_next`: the route, under the exception handler of the application. -/
def call_next (g : SecurityEnv) (cfg : JwtSecurityConfig)
    (route : RequestState → Request → Handle σ ρ) (request : Request) (state : RequestState) :
    Handle σ (Reply ρ) :=
  catching (route state request >>= fun data => pure (.returned data)) fun e =>
    match e with
    | .api e => handle_api_error g cfg request state e
    | e => raise e

/-- The headers of every response. An empty request id is drawn anew. -/
def respond (g : SecurityEnv) (state : RequestState) (reply : Reply ρ) :
    Handle σ (Response ρ) := do
  if state.request_id = "" then
    let n ← draw
    pure ⟨reply, state.trace_id, "req_" ++ g.hex12 n⟩
  else pure ⟨reply, state.trace_id, state.request_id⟩

def is_public (path : String) : Bool :=
  starts_with path "/api/v1/" && !starts_with path "/api/v1/internal/"

def tenant_mismatch : ApiError :=
  ⟨"TENANT_SCOPE_VIOLATION", "tenant mismatch", "security_sensitive", false, 403⟩

/-- The state for the route, or the error and the state to refuse the request with. -/
def authorize (g : SecurityEnv) (cfg : JwtSecurityConfig) (request : Request)
    (state : RequestState) : Except (PyErr × RequestState) RequestState :=
  let header_tenant := (request.header "x-tenant-id").bind word
  if cfg.enabled && is_public request.path then
    match parse_and_validate_bearer_token g cfg (request.header "authorization") with
    | .error e => .error (e, state)
    | .ok auth_ctx =>
      let state :=
        { state with auth_subject := auth_ctx.subject, tenant_id := some auth_ctx.tenant_id }
      match header_tenant with
      | none => .ok state
      | some tenant_id =>
        if tenant_id ≠ auth_ctx.tenant_id then .error (.api tenant_mismatch, state) else .ok state
  else .ok { state with tenant_id := some (header_tenant.getD "tenant_default") }

/-- The `except ApiError` of the middleware. -/
def block (g : SecurityEnv) (cfg : JwtSecurityConfig) (request : Request) (state : RequestState) :
    PyErr → Handle σ (Response ρ)
  | .api e => do
    append_security_audit_log g cfg request state "security_blocked" e.code e.message
    respond g state (.refused e state.trace_id)
  | e => raise e

def trace_required : ApiError :=
  ⟨"TRACE_ID_REQUIRED", "x-trace-id header is required", "validation", false, 400⟩

def initial_state (g : SecurityEnv) (request : Request) : Handle σ RequestState := do
  let incoming_trace_id := strip ((request.header "x-trace-id").getD "")
  let n ← draw
  let m ← draw
  pure {
    trace_id := if incoming_trace_id = "" then g.hex32 n else incoming_trace_id
    request_id := (request.header "x-request-id").getD ("req_" ++ g.hex12 m)
    auth_subject := "anonymous"
    tenant_id := none }

def lacks_trace (cfg : JwtSecurityConfig) (request : Request) : Bool :=
  cfg.trace_id_strict_required && starts_with request.path "/api/v1/" &&
    request.path ≠ "/api/v1/health" && strip ((request.header "x-trace-id").getD "") = ""

/-- The middleware, named `add_trace_id` in `main.py`, around the routes. -/
def serve (g : SecurityEnv) (cfg : JwtSecurityConfig)
    (route : RequestState → Request → Handle σ ρ) (request : Request) : Handle σ (Response ρ) := do
  let state ← initial_state g request
  if lacks_trace cfg request then respond g state (.refused trace_required state.trace_id)
  else
    match authorize g cfg request state with
    | .error (e, state) => block g cfg request state e
    | .ok state =>
      catching (call_next g cfg route request state >>= respond g state)
        (block g cfg request state)

/-- Every state that some requests wrote, oldest first. -/
def served (g : SecurityEnv) (cfg : JwtSecurityConfig)
    (route : RequestState → Request → Handle σ ρ) : Backend σ → List Request → List (Backend σ)
  | _, [] => []
  | b, request :: rest =>
    (serve g cfg route request).written b ++
      served g cfg route ((serve g cfg route request).final b) rest

end middleware

end bid_evaluation.security
