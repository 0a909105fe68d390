/-
# `capability/auth.rs`: who asks

A verifier is made of one key at most, and with the key goes the only algorithm that its tokens
may be signed with.  A request brings a token in a header, and a token that is accepted is a
principal: a role, and the text of all claims.

The text is what the policies of the database read, in `request.jwt.claims`.  They read what was
signed with the configured key, and nothing else (`policies_see_what_was_signed`).  What
`jsonwebtoken` does is a parameter here, with what it documents of `decode`.
-/
import PgPaw.Capability.ScopedRead
import PgPaw.JsonText

namespace PgPaw.Auth

open Program

/-! ## 1. The code -/

inductive Algorithm
  | HS256
  | RS256
  | ES256
  deriving DecidableEq, Repr

/-- `Validation`, as far as it is set here; the rest is as in `Validation::new`. -/
structure Validation where
  algorithm : Algorithm
  validateAud : Bool
  deriving DecidableEq, Repr

/-- `jsonwebtoken`, with keys of a type. -/
structure Jwt (κ : Type) where
  fromSecret : String → κ
  fromRsaPem : String → Except String κ
  fromEcPem : String → Except String κ
  decode : String → κ → Validation → Except String Json

structure AuthConfig where
  jwtSecret : Option String
  jwtPublicKey : Option String
  jwtJwksUrl : Option String
  roleClaim : Option String
  deriving DecidableEq, Repr

structure Verifier (κ : Type) where
  key : κ
  validation : Validation
  roleClaim : String

variable {κ : Type}

/-- `pinned`. -/
def pinned (alg : Algorithm) : Validation := ⟨alg, false⟩

/-- The key of a PEM text, and its algorithm. -/
def pemKey (jwt : Jwt κ) (pem : String) : Except CacheError (κ × Algorithm) :=
  match jwt.fromRsaPem pem with
  | .ok key => .ok (key, .RS256)
  | .error _ => match jwt.fromEcPem pem with
    | .ok key => .ok (key, .ES256)
    | .error e => .error (.config ("invalid JWT public key PEM: " ++ e))

/-- `Verifier::build`. -/
def Verifier.build (jwt : Jwt κ) (secret publicKey jwksUrl : Option String) (roleClaim : String) :
    Except CacheError (Option (Verifier κ)) :=
  let provided := [secret.isSome, publicKey.isSome, jwksUrl.isSome].count true
  if provided > 1 then
    .error (.config "set only one of --jwt-secret / --jwt-public-key / --jwt-jwks-url")
  else match secret, publicKey with
    | some secret, _ => .ok (some ⟨jwt.fromSecret secret, pinned .HS256, roleClaim⟩)
    | none, some pem => (pemKey jwt pem).map fun key => some ⟨key.1, pinned key.2, roleClaim⟩
    | none, none =>
      if jwksUrl.isSome then .error (.config
        "JWKS URL verification is not yet implemented; use --jwt-secret or --jwt-public-key")
      else .ok none

/-- The role claim that goes by default. -/
def AuthConfig.roleClaimName (config : AuthConfig) : String := config.roleClaim.getD "role"

/-- `AuthConfig::into_verifier`. -/
def AuthConfig.intoVerifier (jwt : Jwt κ) (config : AuthConfig) :
    Except CacheError (Option (Verifier κ)) :=
  Verifier.build jwt config.jwtSecret config.jwtPublicKey config.jwtJwksUrl config.roleClaimName

/-- `Value::as_str`. -/
def asStr : Json → Option String
  | .string text => some text
  | _ => none

/-- `Verifier::verify`. -/
def Verifier.verify (jwt : Jwt κ) (verifier : Verifier κ) (token : String) :
    Except CacheError Principal :=
  match jwt.decode token verifier.key verifier.validation with
  | .error e => .error (.unauthorized ("invalid token: " ++ e))
  | .ok claims => match (claims.get verifier.roleClaim).bind asStr with
    | none => .error (.unauthorized ("token missing string '" ++ verifier.roleClaim ++ "' claim"))
    | some role => .ok ⟨role, claims.display⟩

/-- `ReadOperations::authenticate`. -/
def ReadOperations.authenticate (jwt : Jwt κ) (verifier : Option (Verifier κ))
    (bearer : Option String) : Except CacheError (Option Principal) :=
  match bearer with
  | none => .ok none
  | some token => match verifier with
    | none => .error (.unauthorized
        "a token was presented but JWT verification is not configured")
    | some verifier => (verifier.verify jwt token).map some

/-- `HeaderValue::to_str`; a header is the text of its bytes. -/
def toStr (value : String) : Option String :=
  if value.toList.all fun c => (32 ≤ c.toNat && c.toNat < 127) || c == '\t' then some value
  else none

/-- `strip_prefix("Bearer ")`. -/
def stripBearer (value : String) : Option String :=
  (value.toList.dropPrefix? "Bearer ".toList).map String.ofList

/-- `authenticate`, of a request with this `Authorization` header; `operations` is the verifier of
the `ReadOperations`, if there are any. -/
def authenticate (jwt : Jwt κ) (operations : Option (Option (Verifier κ)))
    (header : Option String) : Except CacheError (Option Principal) :=
  match header with
  | none => .ok none
  | some header => match (toStr header).bind stripBearer with
    | none => .error (.unauthorized "malformed Authorization header")
    | some token => match operations with
      | none => .error (.config "read operations are not configured")
      | some verifier => ReadOperations.authenticate jwt verifier (some token)

/-! ## 2. Keys and tokens -/

/-- What a token says, and which keys it is signed with. -/
structure Tokens (κ : Type) where
  algorithm : String → Option Algorithm
  claims : String → Option Json
  SignedWith : κ → Algorithm → String → Prop

/-- **What is documented of `decode`**: claims are returned of a token that names the algorithm of
the validation, and whose signature is right by it. -/
def Jwt.Documented (jwt : Jwt κ) (tokens : Tokens κ) : Prop :=
  ∀ token key validation claims, jwt.decode token key validation = .ok claims →
    tokens.algorithm token = some validation.algorithm ∧
      tokens.SignedWith key validation.algorithm token ∧ tokens.claims token = some claims

/-- **The key of a configuration**, with its algorithm: of a secret, or of a PEM text, which is
read as one of RSA first. -/
inductive AuthConfig.HasKey (jwt : Jwt κ) (config : AuthConfig) : κ → Algorithm → Prop
  | secret {secret : String} (hsecret : config.jwtSecret = some secret)
      (hpublic : config.jwtPublicKey = none) : HasKey jwt config (jwt.fromSecret secret) .HS256
  | rsa {pem : String} {key : κ} (hsecret : config.jwtSecret = none)
      (hpublic : config.jwtPublicKey = some pem) (hkey : jwt.fromRsaPem pem = .ok key) :
    HasKey jwt config key .RS256
  | ec {pem e : String} {key : κ} (hsecret : config.jwtSecret = none)
      (hpublic : config.jwtPublicKey = some pem) (hrsa : jwt.fromRsaPem pem = .error e)
      (hkey : jwt.fromEcPem pem = .ok key) : HasKey jwt config key .ES256

variable {jwt : Jwt κ} {config : AuthConfig}

theorem eq_ok_of_map {ε α β : Type} {f : α → β} {x : Except ε α} {b : β}
    (h : x.map f = .ok b) : ∃ a, x = .ok a ∧ f a = b := by
  cases x with
  | error e => cases h
  | ok a => exact ⟨a, rfl, Except.ok.inj h⟩

/-- A PEM text is read as one of RSA first. -/
theorem pemKey_ok {pem : String} {key : κ} {algorithm : Algorithm}
    (h : pemKey jwt pem = .ok (key, algorithm)) :
    (jwt.fromRsaPem pem = .ok key ∧ algorithm = .RS256) ∨
      ∃ e, jwt.fromRsaPem pem = .error e ∧ jwt.fromEcPem pem = .ok key ∧ algorithm = .ES256 := by
  unfold pemKey at h
  cases hrsa : jwt.fromRsaPem pem with
  | ok found =>
    rw [hrsa] at h
    cases h
    exact Or.inl ⟨rfl, rfl⟩
  | error e =>
    rw [hrsa] at h
    cases hec : jwt.fromEcPem pem with
    | error e => simp [hec] at h
    | ok found =>
      simp only [hec] at h
      cases h
      exact Or.inr ⟨e, rfl, rfl, rfl⟩

/-- A verifier has the key of its configuration. -/
theorem hasKey_of_intoVerifier {verifier : Verifier κ}
    (h : config.intoVerifier jwt = .ok (some verifier)) :
    config.HasKey jwt verifier.key verifier.validation.algorithm ∧
      verifier.roleClaim = config.roleClaimName := by
  unfold AuthConfig.intoVerifier Verifier.build at h
  dsimp only at h
  cases hsecret : config.jwtSecret with
  | some secret =>
    cases hpublic : config.jwtPublicKey with
    | none =>
      rw [hsecret, hpublic] at h
      split at h
      · cases h
      · cases h
        exact ⟨.secret hsecret hpublic, rfl⟩
    | some pem =>
      -- two keys
      cases hurl : config.jwtJwksUrl <;> simp [hsecret, hpublic, hurl] at h
  | none =>
    cases hpublic : config.jwtPublicKey with
    | none =>
      cases hurl : config.jwtJwksUrl <;> simp [hsecret, hpublic, hurl] at h
    | some pem =>
      rw [hsecret, hpublic] at h
      split at h
      · cases h
      · obtain ⟨⟨key, algorithm⟩, hkey, hverifier⟩ := eq_ok_of_map h
        cases hverifier
        rcases pemKey_ok hkey with ⟨hrsa, rfl⟩ | ⟨e, hrsa, hec, rfl⟩
        · exact ⟨.rsa hsecret hpublic hrsa, rfl⟩
        · exact ⟨.ec hsecret hpublic hrsa hec, rfl⟩

/-- **A token of the configured key**: what it says of its bearer. -/
structure Vouches (jwt : Jwt κ) (tokens : Tokens κ) (config : AuthConfig) (token : String)
    (claims : Json) (role : String) : Prop where
  signed : ∃ key algorithm, config.HasKey jwt key algorithm ∧
    tokens.algorithm token = some algorithm ∧ tokens.SignedWith key algorithm token
  payload : tokens.claims token = some claims
  role : claims.get config.roleClaimName = some (.string role)

variable {tokens : Tokens κ}

/-- A principal is one that a token vouches for. -/
theorem vouches_of_verify (hjwt : jwt.Documented tokens) {verifier : Verifier κ}
    (hverifier : config.intoVerifier jwt = .ok (some verifier)) {token : String}
    {principal : Principal} (h : verifier.verify jwt token = .ok principal) :
    ∃ claims, Vouches jwt tokens config token claims principal.role ∧
      principal.claimsJson = claims.display := by
  obtain ⟨hkey, hrole⟩ := hasKey_of_intoVerifier hverifier
  unfold Verifier.verify at h
  split at h
  · cases h
  · rename_i claims hdecode
    obtain ⟨halgorithm, hsigned, hclaims⟩ := hjwt token verifier.key verifier.validation claims
      hdecode
    split at h
    · cases h
    · rename_i role hfound
      cases h
      obtain ⟨value, hget, hvalue⟩ := Option.bind_eq_some_iff.mp hfound
      have hstring : value = .string role := by
        cases value <;> simp_all [asStr]
      rw [hrole, hstring] at hget
      exact ⟨claims, ⟨⟨verifier.key, _, hkey, halgorithm, hsigned⟩, hclaims, hget⟩, rfl⟩

theorem stripBearer_eq_some {value token : String} (h : stripBearer value = some token) :
    value = "Bearer " ++ token := by
  obtain ⟨rest, hrest, rfl⟩ := Option.map_eq_some_iff.mp h
  obtain ⟨front, hfront, happend⟩ := List.dropPrefix?_eq_some_iff.mp hrest
  rw [beq_iff_eq] at happend
  refine String.toList_inj.mp ?_
  rw [String.toList_append, hfront, happend]
  exact congrArg _ String.toList_ofList.symm

/-- A request without a header is nobody's, and one with a header is its bearer's. -/
theorem authenticate_ok (hjwt : jwt.Documented tokens) {verifier : Option (Verifier κ)}
    (hverifier : config.intoVerifier jwt = .ok verifier) {header : Option String}
    {principal : Option Principal}
    (h : authenticate jwt (some verifier) header = .ok principal) :
    (header = none ∧ principal = none) ∨ ∃ token claims p, header = some ("Bearer " ++ token) ∧
      principal = some p ∧ Vouches jwt tokens config token claims p.role ∧
        p.claimsJson = claims.display := by
  cases header with
  | none =>
    cases h
    exact Or.inl ⟨rfl, rfl⟩
  | some header =>
    unfold authenticate at h
    cases htoken : (toStr header).bind stripBearer with
    | none => simp [htoken] at h
    | some token =>
      simp only [htoken] at h
      obtain ⟨value, hvalue, hstrip⟩ := Option.bind_eq_some_iff.mp htoken
      have hheader : header = "Bearer " ++ token := by
        unfold toStr at hvalue
        split at hvalue
        · rw [Option.some.inj hvalue]
          exact stripBearer_eq_some hstrip
        · cases hvalue
      unfold ReadOperations.authenticate at h
      cases verifier with
      | none => cases h
      | some verifier =>
        obtain ⟨p, hp, rfl⟩ := eq_ok_of_map h
        obtain ⟨claims, hvouches, hclaims⟩ := vouches_of_verify hjwt hverifier hp
        exact Or.inr ⟨token, claims, p, by rw [hheader], rfl, hvouches, hclaims⟩

/-! ## 3. What the database is told -/

/-- The query of a read has a text that is not a setting's, so it is where the settings are
made. -/
theorem isFor_of_query {principal : Principal} {headers : Option String} {sql : String}
    {params : List Json} {script : List (Await DbReply)} {before after : Trace DbOp DbReply}
    {op : DbOp} {await : Await DbReply}
    (hsplit : ((SqlOperations.queryJsonScoped (some principal) headers sql params).run.play
      script).2 = before ++ (op, await) :: after)
    (hreads : ∀ e ∈ before, ServerReads e.1 e.2)
    (hop : op = .query (wrapJson sql) params ∨ op = .txQuery (wrapJson sql) params) :
    ∃ scope, session before = some scope ∧
      scope.IsFor (some principal.role) (some principal.claimsJson) headers := by
  have hallows := SqlOperations.obeys_queryJsonScoped.allows_of_split hsplit hreads
  cases hallows with
  | alone howner => simp [ownerScope] at howner
  | begin | commit => simp at hop
  | @set _ setting _ _ _ =>
    rcases hop with hop | hop
    · cases hop
    · exact absurd (DbOp.txQuery.inj hop).1 (SqlOperations.setting_text_ne_wrapJson setting sql)
  | @query _ scope _ hopen hfor => exact ⟨scope, hopen, hfor⟩

/-- **The policies see what was signed.**  A read that comes with a token is answered in a
transaction whose role is that of the token's claims, and whose `request.jwt.claims` are the text
of all of them, which is the text of nothing else; and the token was signed with the key of the
configuration, by the one algorithm that goes with that key.  A read without a header is answered
as nobody's. -/
theorem policies_see_what_was_signed (hjwt : jwt.Documented tokens)
    {verifier : Option (Verifier κ)} (hverifier : config.intoVerifier jwt = .ok verifier)
    {header : Option String} {principal : Option Principal}
    (hauth : authenticate jwt (some verifier) header = .ok principal)
    {sql : String} {params : List Json} {script : List (Await DbReply)}
    {before after : Trace DbOp DbReply} {op : DbOp} {await : Await DbReply}
    (hsplit : ((SqlOperations.queryJsonScoped principal none sql params).run.play script).2 =
      before ++ (op, await) :: after)
    (hreads : ∀ e ∈ before, ServerReads e.1 e.2)
    (hop : op = .query (wrapJson sql) params ∨ op = .txQuery (wrapJson sql) params) :
    (header = none ∧ session before = none) ∨
      ∃ token claims role scope, header = some ("Bearer " ++ token) ∧
        Vouches jwt tokens config token claims role ∧ session before = some scope ∧
        scope.role = some (truncatedName role) ∧
        scope.settings "request.jwt.claims" = some claims.display ∧
        (claims.Printed → ∀ seen : Json, seen.Printed →
          scope.settings "request.jwt.claims" = some seen.display → seen = claims) := by
  rcases authenticate_ok hjwt hverifier hauth with ⟨hheader, rfl⟩ | ⟨token, claims, p, hheader,
    rfl, hvouches, hclaims⟩
  · refine Or.inl ⟨hheader, ?_⟩
    have hallows := SqlOperations.obeys_queryJsonScoped.allows_of_split hsplit hreads
    cases hallows with
    | alone _ => rfl
    | begin hscoped | set hscoped _ _ | query hscoped _ _ | commit hscoped _ =>
      simp [ownerScope] at hscoped
  · obtain ⟨scope, hopen, hfor⟩ := isFor_of_query hsplit hreads hop
    have htext : scope.settings "request.jwt.claims" = some claims.display := by
      rw [hfor.claims, hclaims]
    refine Or.inr ⟨token, claims, p.role, scope, hheader, hvouches, hopen, hfor.role, htext, ?_⟩
    intro hprinted seen hseen hsame
    have hdisplay : seen.display = claims.display := Option.some.inj (hsame.symm.trans htext)
    exact Json.display_inj hseen hprinted hdisplay

/-- One secret, and the token of Alice. -/
def aliceJwt : Jwt String where
  fromSecret secret := secret
  fromRsaPem _ := .error "InvalidKeyFormat"
  fromEcPem _ := .error "InvalidKeyFormat"
  decode token key validation :=
    if token = "alice" ∧ key = "s3cret" ∧ validation.algorithm = .HS256 then
      .ok (.object [("role", .string "alice")])
    else .error "InvalidSignature"

def aliceTokens : Tokens String where
  algorithm token := if token = "alice" then some .HS256 else none
  claims token := if token = "alice" then some (.object [("role", .string "alice")]) else none
  SignedWith key _ _ := key = "s3cret"

/-- What is asked before the query of her read. -/
def aliceBegin : Trace DbOp DbReply :=
  (DbOp.transaction :: [Setting.timeout,
    .claims "\x7b\"role\":\"alice\"\x7d", .headers "\x7b\x7d",
    .role "alice"].map Setting.query).map fun op => (op, ⟨true, some (.ok [])⟩)

/-- Alice is read for as Alice. -/
theorem alice_is_seen : ∃ scope, session aliceBegin = some scope ∧ scope.role = some "alice" := by
  have hjwt : aliceJwt.Documented aliceTokens := by
    intro token key validation claims h
    unfold aliceJwt at h
    dsimp only at h
    split at h
    · rename_i hsigned
      obtain ⟨rfl, rfl, halgorithm⟩ := hsigned
      exact ⟨congrArg some halgorithm.symm, rfl, congrArg some (Except.ok.inj h)⟩
    · cases h
  have hverifier : AuthConfig.intoVerifier aliceJwt ⟨some "s3cret", none, none, none⟩ =
      .ok (some ⟨"s3cret", pinned .HS256, "role"⟩) := by rfl
  have hauth : authenticate aliceJwt (some (some ⟨"s3cret", pinned .HS256, "role"⟩))
      (some "Bearer alice") = .ok (some ⟨"alice", "\x7b\"role\":\"alice\"\x7d"⟩) := by
    decide +kernel
  have hreads : ∀ e ∈ aliceBegin, ServerReads e.1 e.2 := by
    simp only [aliceBegin, List.map_cons, List.map_nil, List.forall_mem_cons, ServerReads,
      Setting.query]
    refine ⟨fun _ => trivial, fun _ => ?_, fun _ => ?_, fun _ => ?_, fun _ => ?_, by simp⟩ <;>
      decide +kernel
  have hsplit : ((SqlOperations.queryJsonScoped
      (some ⟨"alice", "\x7b\"role\":\"alice\"\x7d"⟩) none "SELECT 1" []).run.play
      (List.replicate 7 ⟨true, some (.ok [])⟩)).2 = aliceBegin ++
        (.txQuery (wrapJson "SELECT 1") [], ⟨true, some (.ok [])⟩) ::
          [(.commit, ⟨true, some (.ok [])⟩)] := by rfl
  rcases policies_see_what_was_signed hjwt hverifier hauth hsplit hreads (Or.inr rfl) with
    ⟨hheader, -⟩ | ⟨token, claims, role, scope, hheader, hvouches, hopen, hrole, -⟩
  · cases hheader
  · have htoken : token = "alice" := by
      have happend : "Bearer ".toList ++ "alice".toList = "Bearer ".toList ++ token.toList := by
        have hsame : "Bearer " ++ "alice" = "Bearer " ++ token := Option.some.inj hheader
        rw [← String.toList_append, hsame, String.toList_append]
      exact (String.toList_inj.mp (List.append_cancel_left happend)).symm
    subst htoken
    have hclaims : claims = .object [("role", .string "alice")] :=
      (Option.some.inj hvouches.payload).symm
    have hclaim := hvouches.role
    rw [hclaims] at hclaim
    obtain rfl : "alice" = role := Json.string.inj (Option.some.inj hclaim)
    exact ⟨scope, hopen, hrole⟩

end PgPaw.Auth
