/-
`bin/host`: what the host makes of a reply of eigenda-proxy
(`status_code.rs`, `fetch_data_from_proxy`), and the provider that
asks the proxy itself, `OnlineEigenDAPreimageProvider`.

A reply is what the HTTP client hands over; reading its body and its
JSON may fail. The proxy is a machine that answers one request after
another: two requests for one commitment may be answered differently.
-/
import Hokulea.Eigenda.Preimage

namespace Hokulea

open Bytes

-- ====================================================== status codes

/-- `HTTP_RESPONSE_STATUS_CODE_TEAPOT` -/
def HTTP_RESPONSE_STATUS_CODE_TEAPOT : Nat := 418

/-- `STATUS_CODE_CERT_PARSE_ERROR` -/
def STATUS_CODE_CERT_PARSE_ERROR : UInt8 := 1

/-- `STATUS_CODE_RECENCY_ERROR` -/
def STATUS_CODE_RECENCY_ERROR : UInt8 := 2

/-- `STATUS_CODE_INVALID_CERT` -/
def STATUS_CODE_INVALID_CERT : UInt8 := 3

/-- `STATUS_CODE_BLOB_DECODING_ERROR` -/
def STATUS_CODE_BLOB_DECODING_ERROR : UInt8 := 4

/-- `DerivationError` -/
structure DerivationError where
  statusCode : UInt8
  msg : String
  deriving DecidableEq, Repr

/-- `HostHandlerError` -/
inductive HostHandlerError where
  | hokuleaPreimageError (e : HokuleaPreimageError)
  | hokuleaRecencyCheckError
  | hokuleaEncodedPayloadDecodingError (code : UInt8)
  | undefinedStatusCodeError (code : UInt8)
  | illogicalStatusCodeError (code : UInt8)
  deriving DecidableEq, Repr

/-- `From<DerivationError> for HostHandlerError` -/
def DerivationError.toHostHandlerError (status : DerivationError) :
    HostHandlerError :=
  if status.statusCode = STATUS_CODE_INVALID_CERT then
    .hokuleaPreimageError .invalidCert
  else if status.statusCode = STATUS_CODE_RECENCY_ERROR then
    .hokuleaRecencyCheckError
  else if status.statusCode = STATUS_CODE_CERT_PARSE_ERROR then
    .illogicalStatusCodeError status.statusCode
  else if status.statusCode = STATUS_CODE_BLOB_DECODING_ERROR then
    .hokuleaEncodedPayloadDecodingError status.statusCode
  else .undefinedStatusCodeError status.statusCode

-- =========================================================== replies

/-- `reqwest::Response`: `bytes` and `json` are what reading the body
gives, `errorForStatus` the text of the status as an error. -/
structure Response where
  status : Nat
  bytes : Except String Bytes
  json : Except String DerivationError
  errorForStatus : String

/-- What a request to the proxy comes to. -/
inductive ProxyReply where
  | badUrl (e : String)
  | sendError (e : String)
  | response (r : Response)

/-- `ProxyDerivationStage` -/
structure ProxyDerivationStage where
  isValidCert : Bool
  passRecencyCheck : Bool
  encodedPayload : Bytes
  deriving DecidableEq

/-- `StatusCode::is_success` -/
def Response.isSuccess (r : Response) : Bool :=
  200 ≤ r.status && r.status < 300

/-- The branch of `fetch_data_from_proxy` on a teapot. -/
def teapotStage (statusCode : DerivationError) :
    Except String ProxyDerivationStage :=
  match statusCode.toHostHandlerError with
  | .hokuleaPreimageError .invalidCert => .ok ⟨false, true, []⟩
  | .hokuleaRecencyCheckError => .ok ⟨true, false, []⟩
  | .hokuleaEncodedPayloadDecodingError e
  | .illogicalStatusCodeError e
  | .undefinedStatusCodeError e =>
      .error ("failed to handle http response: " ++ Nat.repr e.toNat)

/-- `fetch_data_from_proxy`, the reply in hand. -/
def fetchDataFromProxy : ProxyReply → Except String ProxyDerivationStage
  | .badUrl e => .error ("failed to construct URL: " ++ e)
  | .sendError e => .error ("failed to fetch eigenda encoded payload: " ++ e)
  | .response r =>
      if r.isSuccess then
        match r.bytes with
        | .error e => .error
            ("should be able to get encoded payload from http response " ++ e)
        | .ok encodedPayload => .ok ⟨true, true, encodedPayload⟩
      else if r.status ≠ HTTP_RESPONSE_STATUS_CODE_TEAPOT then
        .error ("failed to fetch eigenda encoded payload, status "
          ++ r.errorForStatus)
      else
        match r.json with
        | .error e => .error ("failed to deserialize 418 body: " ++ e)
        | .ok statusCode => teapotStage statusCode

/-- The replies a stage comes from. The record keeps little of them:
an empty body is also what both kinds of teapot leave. -/
inductive StageOf : ProxyReply → ProxyDerivationStage → Prop
  /-- A success, and its body. -/
  | success {r : Response} {encodedPayload : Bytes} (hs : r.isSuccess = true)
      (hb : r.bytes = .ok encodedPayload) :
      StageOf (.response r) ⟨true, true, encodedPayload⟩
  /-- A teapot that calls the certificate invalid. -/
  | invalidCert {r : Response} {msg : String} (hs : r.status = 418)
      (hj : r.json = .ok ⟨STATUS_CODE_INVALID_CERT, msg⟩) :
      StageOf (.response r) ⟨false, true, []⟩
  /-- A teapot that calls it stale. -/
  | stale {r : Response} {msg : String} (hs : r.status = 418)
      (hj : r.json = .ok ⟨STATUS_CODE_RECENCY_ERROR, msg⟩) :
      StageOf (.response r) ⟨true, false, []⟩

/-- What a teapot's code is taken for. -/
theorem teapotStage_eq_ok_iff {statusCode : DerivationError}
    {stage : ProxyDerivationStage} :
    teapotStage statusCode = .ok stage
      ↔ statusCode.statusCode = STATUS_CODE_INVALID_CERT
          ∧ stage = ⟨false, true, []⟩
        ∨ statusCode.statusCode = STATUS_CODE_RECENCY_ERROR
          ∧ stage = ⟨true, false, []⟩ := by
  obtain ⟨code, msg⟩ := statusCode
  unfold teapotStage DerivationError.toHostHandlerError
  by_cases hinvalid : code = STATUS_CODE_INVALID_CERT
  · subst hinvalid
    simp [STATUS_CODE_INVALID_CERT, STATUS_CODE_RECENCY_ERROR, eq_comm]
  by_cases hstale : code = STATUS_CODE_RECENCY_ERROR
  · subst hstale
    simp [STATUS_CODE_INVALID_CERT, STATUS_CODE_RECENCY_ERROR, eq_comm]
  simp only [hinvalid, hstale, if_false, false_and, or_false, iff_false]
  by_cases hparse : code = STATUS_CODE_CERT_PARSE_ERROR
  · simp [hparse]
  by_cases hdecoding : code = STATUS_CODE_BLOB_DECODING_ERROR
  · simp [hdecoding, STATUS_CODE_BLOB_DECODING_ERROR,
      STATUS_CODE_CERT_PARSE_ERROR]
  simp [hparse, hdecoding]

/-- A success is its body. -/
theorem fetchDataFromProxy_success {r : Response} {encodedPayload : Bytes}
    (hs : r.isSuccess = true) (hb : r.bytes = .ok encodedPayload) :
    fetchDataFromProxy (.response r) = .ok ⟨true, true, encodedPayload⟩ := by
  simp only [fetchDataFromProxy, hs, if_true, hb]

/-- A teapot is what its code is taken for. -/
theorem fetchDataFromProxy_teapot {r : Response} {statusCode : DerivationError}
    (hs : r.status = HTTP_RESPONSE_STATUS_CODE_TEAPOT)
    (hj : r.json = .ok statusCode) :
    fetchDataFromProxy (.response r) = teapotStage statusCode := by
  have hfail : r.isSuccess = false := by
    rw [Response.isSuccess, hs]
    rfl
  simp [fetchDataFromProxy, hfail, hs, hj]

/-- `fetch_data_from_proxy` makes a stage of exactly three kinds of
reply. -/
theorem fetchDataFromProxy_eq_ok_iff {reply : ProxyReply}
    {stage : ProxyDerivationStage} :
    fetchDataFromProxy reply = .ok stage ↔ StageOf reply stage := by
  constructor
  · intro h
    cases reply with
    | badUrl e => cases h
    | sendError e => cases h
    | response r =>
        by_cases hsuccess : r.isSuccess = true
        · cases hbytes : r.bytes with
          | error e =>
              simp only [fetchDataFromProxy, hsuccess, if_true, hbytes] at h
              cases h
          | ok encodedPayload =>
              rw [fetchDataFromProxy_success hsuccess hbytes] at h
              rw [← Except.ok.inj h]
              exact .success hsuccess hbytes
        by_cases hteapot : r.status = HTTP_RESPONSE_STATUS_CODE_TEAPOT
        · cases hjson : r.json with
          | error e =>
              simp only [fetchDataFromProxy, if_neg hsuccess,
                if_neg (not_not.mpr hteapot), hjson] at h
              cases h
          | ok statusCode =>
              rw [fetchDataFromProxy_teapot hteapot hjson] at h
              obtain ⟨code, msg⟩ := statusCode
              rcases teapotStage_eq_ok_iff.mp h with ⟨hcode, rfl⟩ | ⟨hcode, rfl⟩
              · simp only at hcode
                subst hcode
                exact .invalidCert hteapot hjson
              · simp only at hcode
                subst hcode
                exact .stale hteapot hjson
        · simp only [fetchDataFromProxy, if_neg hsuccess, if_pos hteapot] at h
          cases h
  · intro h
    cases h with
    | success hs hb => exact fetchDataFromProxy_success hs hb
    | invalidCert hs hj =>
        rw [fetchDataFromProxy_teapot hs hj]
        exact teapotStage_eq_ok_iff.mpr (.inl ⟨rfl, rfl⟩)
    | stale hs hj =>
        rw [fetchDataFromProxy_teapot hs hj]
        exact teapotStage_eq_ok_iff.mpr (.inr ⟨rfl, rfl⟩)

/-- None is made of a reply that fails. -/
theorem not_stageOf {reply : ProxyReply} {e : String}
    (h : fetchDataFromProxy reply = .error e) (stage : ProxyDerivationStage) :
    ¬ StageOf reply stage := by
  intro hstage
  rw [fetchDataFromProxy_eq_ok_iff.mpr hstage] at h
  cases h

/-- One stage at most is made of a reply. -/
theorem StageOf.unique {reply : ProxyReply} {stage stage' : ProxyDerivationStage}
    (h : StageOf reply stage) (h' : StageOf reply stage') : stage = stage' := by
  have hstage := fetchDataFromProxy_eq_ok_iff.mpr h
  rw [fetchDataFromProxy_eq_ok_iff.mpr h'] at hstage
  exact (Except.ok.inj hstage).symm

-- =============================================== the online provider

/-- `OnlineEigenDAPreimageProvider`: the proxy, and the last stage
fetched. -/
structure OnlineEigenDAPreimageProvider (ρ : Type) where
  inner : ρ
  lastEntry : Option (AltDACommitment × ProxyDerivationStage)

namespace OnlineEigenDAPreimageProvider

variable {ρ : Type} (ask : Bytes → ρ → ProxyReply × ρ)

/-- The stage the cache holds for a commitment. -/
def cached (c : AltDACommitment) (s : OnlineEigenDAPreimageProvider ρ) :
    Option ProxyDerivationStage :=
  match s.lastEntry with
  | some (cachedCommitment, cachedStage) =>
      if cachedCommitment = c then some cachedStage else none
  | none => none

/-- `get_or_fetch_payload` -/
def getOrFetchPayload (c : AltDACommitment)
    (s : OnlineEigenDAPreimageProvider ρ) :
    Except HokuleaErrorKind ProxyDerivationStage
      × OnlineEigenDAPreimageProvider ρ :=
  match s.cached c with
  | some stage => (.ok stage, s)
  | none =>
      let (reply, inner) := ask c.toRlpBytes s.inner
      match fetchDataFromProxy reply with
      | .error e =>
          (.error (.temporary ("fetch failed: " ++ e)), { s with inner })
      | .ok stage => (.ok stage, ⟨inner, some (c, stage)⟩)

/-- `EigenDAPreimageProvider::get_validity` -/
def getValidity (c : AltDACommitment) (s : OnlineEigenDAPreimageProvider ρ) :
    Option (Except HokuleaErrorKind Bool × OnlineEigenDAPreimageProvider ρ) :=
  match getOrFetchPayload ask c s with
  | (.error e, s) => some (.error e, s)
  | (.ok stage, s) => some (.ok stage.isValidCert, s)

/-- `EigenDAPreimageProvider::get_encoded_payload` -/
def getEncodedPayload (c : AltDACommitment)
    (s : OnlineEigenDAPreimageProvider ρ) :
    Option (Except HokuleaErrorKind EncodedPayload
      × OnlineEigenDAPreimageProvider ρ) :=
  match getOrFetchPayload ask c s with
  | (.error e, s) => some (.error e, s)
  | (.ok stage, s) => some (.ok ⟨stage.encodedPayload⟩, s)

/-- The provider that asks the proxy itself. -/
def provider :
    EigenDAPreimageProvider (OnlineEigenDAPreimageProvider ρ)
      HokuleaErrorKind where
  getValidity := getValidity ask
  getEncodedPayload := getEncodedPayload ask
  into := id

end OnlineEigenDAPreimageProvider

end Hokulea
