/-
The online provider over runs: any calls, for any commitments, against
any proxy.

# The book

`logged` is the proxy with every exchange written down, and
`answeredFrom` the last exchange that made a stage. The cache is a copy
of that stage under its commitment (`CacheKept`), so a call that is
answered at all is answered from there: `getOrFetchPayload_spec` is the
one place where the cache and the proxy are told apart.

# What is proved

`faithful_iff`: validities are always those of the reply answered from,
and the payload call after a validity call is answered from the same
reply. A payload is the body of a success as long as no payload is
asked for on a teapot: the stage of a teapot has the empty body, and
`get_encoded_payload` looks at neither of its flags.
-/
import Hokulea.Proofs.HostRoutes

namespace Hokulea

open Bytes

-- ============================================================ the runs

/-- A request to the proxy, and its reply. -/
structure Exchange where
  request : Bytes
  reply : ProxyReply

/-- A call to the provider. -/
inductive ProviderCall where
  | getValidity (c : AltDACommitment)
  | getEncodedPayload (c : AltDACommitment)

/-- The commitment a call is for. -/
def ProviderCall.commitment : ProviderCall → AltDACommitment
  | .getValidity c => c
  | .getEncodedPayload c => c

namespace OnlineEigenDAPreimageProvider

section Runs

variable {ρ : Type} (ask : Bytes → ρ → ProxyReply × ρ)

/-- The proxy with every exchange written down. -/
def logged (request : Bytes) (s : ρ × List Exchange) :
    ProxyReply × (ρ × List Exchange) :=
  let (reply, proxy) := ask request s.1
  (reply, (proxy, s.2 ++ [⟨request, reply⟩]))

/-- A new provider, before its first exchange. -/
def fresh (proxy : ρ) : OnlineEigenDAPreimageProvider (ρ × List Exchange) :=
  ⟨(proxy, []), none⟩

/-- The state after one call, whatever it returns. -/
def runCall (s : OnlineEigenDAPreimageProvider (ρ × List Exchange)) :
    ProviderCall → Option (OnlineEigenDAPreimageProvider (ρ × List Exchange))
  | .getValidity c => (getValidity (logged ask) c s).map (·.2)
  | .getEncodedPayload c => (getEncodedPayload (logged ask) c s).map (·.2)

/-- The state after one call after another. -/
def runCalls (calls : List ProviderCall)
    (s : OnlineEigenDAPreimageProvider (ρ × List Exchange)) :
    Option (OnlineEigenDAPreimageProvider (ρ × List Exchange)) :=
  calls.foldlM (runCall ask) s

end Runs

-- ---------------------------------------------------- what is claimed

section Claims

variable {ρ : Type}

/-- The last exchange that made a stage. -/
def answeredFrom (s : OnlineEigenDAPreimageProvider (ρ × List Exchange)) :
    Option Exchange :=
  (s.inner.2.filter fun x => (fetchDataFromProxy x.reply).isOk).getLast?

variable (ask : Bytes → ρ → ProxyReply × ρ)

/-- The reply that the next call for a commitment will be answered
from, should it be answered: on a hit the one in the book, else the
proxy's next. -/
def replyFor (c : AltDACommitment)
    (s : OnlineEigenDAPreimageProvider (ρ × List Exchange)) :
    Option ProxyReply :=
  if (s.cached c).isSome then (answeredFrom s).map (·.reply)
  else some (ask c.toRlpBytes s.inner.1).1

/-- A teapot that a stage is made of. -/
def IsTeapot (reply : ProxyReply) : Prop :=
  ∃ r msg, reply = .response r ∧ r.status = HTTP_RESPONSE_STATUS_CODE_TEAPOT
    ∧ (r.json = .ok ⟨STATUS_CODE_INVALID_CERT, msg⟩
      ∨ r.json = .ok ⟨STATUS_CODE_RECENCY_ERROR, msg⟩)

/-- What a run of calls owes: every answer is that of the reply it is
answered from. -/
structure Faithful (calls : List ProviderCall) (proxy : ρ) : Prop where
  /-- a validity comes from a reply to the commitment -/
  validity : ∀ before c after s, calls = before ++ .getValidity c :: after →
    runCalls ask before (fresh proxy) = some s →
    ∀ v s', getValidity (logged ask) c s = some (.ok v, s') →
      ∃ reply stage, answeredFrom s' = some ⟨c.toRlpBytes, reply⟩
        ∧ StageOf reply stage ∧ stage.isValidCert = v
  /-- a payload is the body of a success reply to the commitment -/
  payload : ∀ before c after s,
    calls = before ++ .getEncodedPayload c :: after →
    runCalls ask before (fresh proxy) = some s →
    ∀ p s', getEncodedPayload (logged ask) c s = some (.ok p, s') →
      ∃ r, answeredFrom s' = some ⟨c.toRlpBytes, .response r⟩
        ∧ r.isSuccess = true ∧ r.bytes = .ok p.encodedPayload
  /-- the payload call after a validity call, no call for another
  commitment between them, is answered from the same reply -/
  sameReply : ∀ before c between after s,
    calls = before ++ .getValidity c :: (between
      ++ .getEncodedPayload c :: after) →
    (∀ call ∈ between, call.commitment = c) →
    runCalls ask before (fresh proxy) = some s →
    ∀ v s', getValidity (logged ask) c s = some (.ok v, s') →
      ∃ reply stage, answeredFrom s' = some ⟨c.toRlpBytes, reply⟩
        ∧ StageOf reply stage ∧ stage.isValidCert = v
        ∧ runCalls ask between s' = some s'
        ∧ getEncodedPayload (logged ask) c s'
          = some (.ok ⟨stage.encodedPayload⟩, s')
  /-- no teapot that reports a valid certificate gives a payload that is
  discarded -/
  teapot : ∀ before c after s,
    calls = before ++ .getEncodedPayload c :: after →
    runCalls ask before (fresh proxy) = some s →
    ∀ p s', getEncodedPayload (logged ask) c s = some (.ok p, s') →
    ∀ request r stage, answeredFrom s' = some ⟨request, .response r⟩ →
      r.status = HTTP_RESPONSE_STATUS_CODE_TEAPOT →
      StageOf (.response r) stage → stage.isValidCert = true →
      decodeOutcome p ≠ some .discard

end Claims

-- ========================================================== the cache

section Cache

variable {ρ : Type} {ask : Bytes → ρ → ProxyReply × ρ}
  {s : OnlineEigenDAPreimageProvider (ρ × List Exchange)}

/-- The cache holds the stage of the reply answered from. -/
def CacheKept (s : OnlineEigenDAPreimageProvider (ρ × List Exchange)) : Prop :=
  ∀ c stage, s.lastEntry = some (c, stage) →
    ∃ reply, answeredFrom s = some ⟨c.toRlpBytes, reply⟩
      ∧ StageOf reply stage

/-- A hit is the last entry. -/
theorem cached_eq_some_iff {c : AltDACommitment} {stage : ProxyDerivationStage} :
    s.cached c = some stage ↔ s.lastEntry = some (c, stage) := by
  unfold cached
  rcases s.lastEntry with _ | ⟨d, cachedStage⟩
  · simp
  · by_cases hd : d = c
    · simp [hd]
    · simp [hd]

/-- An exchange that makes a stage is the one answered from. -/
theorem answeredFrom_made {proxy : ρ} {log : List Exchange} {x : Exchange}
    {entry : Option (AltDACommitment × ProxyDerivationStage)}
    {stage : ProxyDerivationStage}
    (h : fetchDataFromProxy x.reply = .ok stage) :
    answeredFrom ⟨(proxy, log ++ [x]), entry⟩ = some x := by
  simp [answeredFrom, h, Except.isOk, Except.toBool]

/-- One that makes none is passed over. -/
theorem answeredFrom_failed {proxy : ρ} {x : Exchange} {e : String}
    (h : fetchDataFromProxy x.reply = .error e) :
    answeredFrom ⟨(proxy, s.inner.2 ++ [x]), s.lastEntry⟩ = answeredFrom s := by
  simp [answeredFrom, h, Except.isOk, Except.toBool]

/-- One fetch: the cache is kept, and what is returned is the stage of
the reply that was due. -/
theorem getOrFetchPayload_spec (hs : CacheKept s) (c : AltDACommitment) :
    CacheKept (getOrFetchPayload (logged ask) c s).2
    ∧ (∀ stage, (getOrFetchPayload (logged ask) c s).1 = .ok stage →
        (getOrFetchPayload (logged ask) c s).2.lastEntry = some (c, stage)
        ∧ ∃ reply, replyFor ask c s = some reply ∧ StageOf reply stage
          ∧ answeredFrom (getOrFetchPayload (logged ask) c s).2
            = some ⟨c.toRlpBytes, reply⟩)
    ∧ (∀ reply stage, replyFor ask c s = some reply → StageOf reply stage →
        (getOrFetchPayload (logged ask) c s).1 = .ok stage) := by
  unfold getOrFetchPayload
  cases hcached : s.cached c with
  | some stage =>
      -- a hit: nothing changes
      have hentry := cached_eq_some_iff.mp hcached
      obtain ⟨reply, hfrom, hstage⟩ := hs c stage hentry
      have hreply : replyFor ask c s = some reply := by
        simp [replyFor, hcached, hfrom]
      refine ⟨hs, fun other hother => ?_, fun reply' other hreply' hother => ?_⟩
      · rw [← Except.ok.inj hother]
        exact ⟨hentry, reply, hreply, hstage, hfrom⟩
      · rw [hreply] at hreply'
        rw [← Option.some.inj hreply'] at hother
        show Except.ok stage = Except.ok other
        rw [hstage.unique hother]
  | none =>
      have hreply : replyFor ask c s = some (ask c.toRlpBytes s.inner.1).1 := by
        simp [replyFor, hcached]
      simp only [logged]
      cases hfetch : fetchDataFromProxy (ask c.toRlpBytes s.inner.1).1 with
      | error e =>
          -- the exchange makes no stage: the old entry stays
          refine ⟨?_, nofun, fun reply stage hreply' hstage => ?_⟩
          · intro d stage hentry
            obtain ⟨reply, hfrom, hstage⟩ := hs d stage hentry
            exact ⟨reply, (answeredFrom_failed hfetch).trans hfrom, hstage⟩
          · rw [hreply] at hreply'
            rw [← Option.some.inj hreply'] at hstage
            exact absurd hstage (not_stageOf hfetch stage)
      | ok stage =>
          have hstage := fetchDataFromProxy_eq_ok_iff.mp hfetch
          refine ⟨?_, fun other hother => ?_, fun reply other hreply' hother => ?_⟩
          · intro d other hentry
            obtain ⟨rfl, rfl⟩ := Prod.mk.inj (Option.some.inj hentry)
            exact ⟨_, answeredFrom_made hfetch, hstage⟩
          · rw [← Except.ok.inj hother]
            exact ⟨rfl, _, hreply, hstage, answeredFrom_made hfetch⟩
          · rw [hreply] at hreply'
            rw [← Option.some.inj hreply'] at hother
            show Except.ok stage = Except.ok other
            rw [hstage.unique hother]

/-- A stage that is returned is in the cache, and is that of the reply
answered from. -/
theorem getOrFetchPayload_answered (hs : CacheKept s) {c : AltDACommitment}
    {stage : ProxyDerivationStage}
    {s' : OnlineEigenDAPreimageProvider (ρ × List Exchange)}
    (h : getOrFetchPayload (logged ask) c s = (.ok stage, s')) :
    s'.lastEntry = some (c, stage)
      ∧ ∃ reply, replyFor ask c s = some reply ∧ StageOf reply stage
        ∧ answeredFrom s' = some ⟨c.toRlpBytes, reply⟩ := by
  obtain ⟨-, hok, -⟩ := @getOrFetchPayload_spec ρ ask s hs c
  rw [h] at hok
  exact hok stage rfl

/-- A validity call is one fetch. -/
theorem getValidity_eq_some_iff {c : AltDACommitment} {v : Bool}
    {s' : OnlineEigenDAPreimageProvider (ρ × List Exchange)} :
    getValidity (logged ask) c s = some (.ok v, s')
      ↔ ∃ stage, getOrFetchPayload (logged ask) c s = (.ok stage, s')
        ∧ stage.isValidCert = v := by
  unfold getValidity
  rcases getOrFetchPayload (logged ask) c s with ⟨r, s''⟩
  cases r with
  | error e => simp
  | ok stage => simp [and_comm]

/-- So is a payload call. -/
theorem getEncodedPayload_eq_some_iff {c : AltDACommitment} {p : EncodedPayload}
    {s' : OnlineEigenDAPreimageProvider (ρ × List Exchange)} :
    getEncodedPayload (logged ask) c s = some (.ok p, s')
      ↔ ∃ stage, getOrFetchPayload (logged ask) c s = (.ok stage, s')
        ∧ ⟨stage.encodedPayload⟩ = p := by
  unfold getEncodedPayload
  rcases getOrFetchPayload (logged ask) c s with ⟨r, s''⟩
  cases r with
  | error e => simp
  | ok stage => simp [and_comm]

/-- Every call does to the state what a fetch does. -/
theorem runCall_eq (s : OnlineEigenDAPreimageProvider (ρ × List Exchange))
    (call : ProviderCall) :
    runCall ask s call
      = some (getOrFetchPayload (logged ask) call.commitment s).2 := by
  cases call with
  | getValidity c =>
      show (getValidity (logged ask) c s).map (·.2)
        = some (getOrFetchPayload (logged ask) c s).2
      unfold getValidity
      rcases getOrFetchPayload (logged ask) c s with ⟨r, s'⟩
      cases r <;> rfl
  | getEncodedPayload c =>
      show (getEncodedPayload (logged ask) c s).map (·.2)
        = some (getOrFetchPayload (logged ask) c s).2
      unfold getEncodedPayload
      rcases getOrFetchPayload (logged ask) c s with ⟨r, s'⟩
      cases r <;> rfl

/-- The cache is kept over every run. -/
theorem cacheKept_runCalls {calls : List ProviderCall}
    {s s' : OnlineEigenDAPreimageProvider (ρ × List Exchange)}
    (hs : CacheKept s) (h : runCalls ask calls s = some s') : CacheKept s' := by
  induction calls generalizing s with
  | nil =>
      rw [← Option.some.inj h]
      exact hs
  | cons call calls ih =>
      unfold runCalls at h
      rw [List.foldlM_cons, runCall_eq, Option.bind_eq_bind,
        Option.bind_some] at h
      exact ih (getOrFetchPayload_spec hs call.commitment).1 h

/-- Calls for the cached commitment change nothing. -/
theorem runCalls_cached {c : AltDACommitment} {stage : ProxyDerivationStage}
    {calls : List ProviderCall} (hcalls : ∀ call ∈ calls, call.commitment = c)
    (hentry : s.lastEntry = some (c, stage)) :
    runCalls ask calls s = some s := by
  induction calls with
  | nil => rfl
  | cons call calls ih =>
      have hhit : getOrFetchPayload (logged ask) call.commitment s
          = (.ok stage, s) := by
        rw [hcalls call (by simp), getOrFetchPayload,
          cached_eq_some_iff.mpr hentry]
      unfold runCalls
      rw [List.foldlM_cons, runCall_eq, hhit, Option.bind_eq_bind,
        Option.bind_some]
      exact ih fun x hx => hcalls x (by simp [hx])

/-- A new provider has nothing in its cache. -/
theorem cacheKept_fresh (proxy : ρ) : CacheKept (fresh proxy) :=
  nofun

/-- In every state reached the cache is kept. -/
theorem cacheKept_run {calls : List ProviderCall} {proxy : ρ}
    (h : runCalls ask calls (fresh proxy) = some s) : CacheKept s :=
  cacheKept_runCalls (cacheKept_fresh proxy) h

end Cache

-- ============================================================ teapots

/-- Such a teapot makes a stage. -/
theorem stageOf_isTeapot {reply : ProxyReply} (h : IsTeapot reply) :
    ∃ stage, StageOf reply stage := by
  obtain ⟨r, msg, rfl, hs, hj⟩ := h
  rcases hj with hj | hj
  · exact ⟨_, .invalidCert hs hj⟩
  · exact ⟨_, .stale hs hj⟩

/-- A stage is made of a teapot or of a success. -/
theorem isSuccess_of_not_isTeapot {reply : ProxyReply}
    {stage : ProxyDerivationStage} (h : StageOf reply stage)
    (hnot : ¬ IsTeapot reply) :
    ∃ r, reply = .response r ∧ r.isSuccess = true
      ∧ r.bytes = .ok stage.encodedPayload := by
  cases h with
  | success hs hb => exact ⟨_, rfl, hs, hb⟩
  | invalidCert hs hj => exact absurd ⟨_, _, rfl, hs, .inl hj⟩ hnot
  | stale hs hj => exact absurd ⟨_, _, rfl, hs, .inr hj⟩ hnot

/-- A success is no teapot. -/
theorem status_ne_of_isSuccess {r : Response} (h : r.isSuccess = true) :
    r.status ≠ HTTP_RESPONSE_STATUS_CODE_TEAPOT := by
  intro hs
  rw [Response.isSuccess, hs] at h
  cases h

section Payloads

variable {ρ : Type} {ask : Bytes → ρ → ProxyReply × ρ}
  {s s' : OnlineEigenDAPreimageProvider (ρ × List Exchange)}
  {c : AltDACommitment}

/-- A payload that is not due from a teapot is the body of a success. -/
theorem getEncodedPayload_success (hs : CacheKept s)
    (hnot : ∀ reply, replyFor ask c s = some reply → ¬ IsTeapot reply)
    {p : EncodedPayload}
    (hp : getEncodedPayload (logged ask) c s = some (.ok p, s')) :
    ∃ r, answeredFrom s' = some ⟨c.toRlpBytes, .response r⟩
      ∧ r.isSuccess = true ∧ r.bytes = .ok p.encodedPayload := by
  obtain ⟨stage, hfetch, hbody⟩ := getEncodedPayload_eq_some_iff.mp hp
  obtain ⟨-, reply, hreply, hstage, hfrom⟩ :=
    getOrFetchPayload_answered hs hfetch
  obtain ⟨r, hr, hsuccess, hbytes⟩ :=
    isSuccess_of_not_isTeapot hstage (hnot reply hreply)
  subst hr hbody
  exact ⟨r, hfrom, hsuccess, hbytes⟩

/-- A payload that is due from a teapot is returned all the same. -/
theorem getEncodedPayload_teapot (hs : CacheKept s) {reply : ProxyReply}
    (hreply : replyFor ask c s = some reply) (hteapot : IsTeapot reply) :
    ∃ p s', getEncodedPayload (logged ask) c s = some (.ok p, s')
      ∧ answeredFrom s' = some ⟨c.toRlpBytes, reply⟩ := by
  obtain ⟨stage, hstage⟩ := stageOf_isTeapot hteapot
  obtain ⟨-, -, hback⟩ := @getOrFetchPayload_spec ρ ask s hs c
  have hfetch := hback reply stage hreply hstage
  have hcall : getOrFetchPayload (logged ask) c s = (.ok stage, _) :=
    Prod.ext hfetch rfl
  obtain ⟨-, other, hother, -, hfrom⟩ := getOrFetchPayload_answered hs hcall
  rw [hreply, Option.some.injEq] at hother
  subst hother
  exact ⟨_, _, getEncodedPayload_eq_some_iff.mpr ⟨stage, hcall, rfl⟩, hfrom⟩

/-- A book's last entry is one reply, and a success is no teapot. -/
theorem not_teapot_of_success {request request' : Bytes} {r r' : Response}
    (h : answeredFrom s = some ⟨request, .response r⟩)
    (h' : answeredFrom s = some ⟨request', .response r'⟩)
    (hsuccess : r'.isSuccess = true) :
    r.status ≠ HTTP_RESPONSE_STATUS_CODE_TEAPOT := by
  rw [h, Option.some.injEq, Exchange.mk.injEq] at h'
  rw [ProxyReply.response.inj h'.2]
  exact status_ne_of_isSuccess hsuccess

end Payloads

/-- A run is faithful exactly when no payload is asked for on a
teapot. -/
theorem faithful_iff {ρ : Type} (ask : Bytes → ρ → ProxyReply × ρ)
    (calls : List ProviderCall) (proxy : ρ) :
    Faithful ask calls proxy
      ↔ ∀ before c after s, calls = before ++ .getEncodedPayload c :: after →
          runCalls ask before (fresh proxy) = some s →
          ∀ reply, replyFor ask c s = some reply → ¬ IsTeapot reply := by
  constructor
  · intro h before c after s hcalls hrun reply hreply hteapot
    obtain ⟨p, s', hp, hfrom⟩ :=
      getEncodedPayload_teapot (cacheKept_run hrun) hreply hteapot
    obtain ⟨r, hfrom', hsuccess, -⟩ :=
      h.payload before c after s hcalls hrun p s' hp
    obtain ⟨r', msg, rfl, hstatus, -⟩ := hteapot
    exact not_teapot_of_success hfrom hfrom' hsuccess hstatus
  · intro h
    have hpayload : ∀ before c after s,
        calls = before ++ .getEncodedPayload c :: after →
        runCalls ask before (fresh proxy) = some s →
        ∀ p s', getEncodedPayload (logged ask) c s = some (.ok p, s') →
          ∃ r, answeredFrom s' = some ⟨c.toRlpBytes, .response r⟩
            ∧ r.isSuccess = true ∧ r.bytes = .ok p.encodedPayload := by
      intro before c after s hcalls hrun p s' hp
      exact getEncodedPayload_success (cacheKept_run hrun)
        (h before c after s hcalls hrun) hp
    refine ⟨?_, hpayload, ?_, ?_⟩
    · intro before c after s hcalls hrun v s' hv
      obtain ⟨stage, hfetch, hvalid⟩ := getValidity_eq_some_iff.mp hv
      obtain ⟨-, reply, -, hstage, hfrom⟩ :=
        getOrFetchPayload_answered (cacheKept_run hrun) hfetch
      exact ⟨reply, stage, hfrom, hstage, hvalid⟩
    · intro before c between after s hcalls hbetween hrun v s' hv
      obtain ⟨stage, hfetch, hvalid⟩ := getValidity_eq_some_iff.mp hv
      obtain ⟨hentry, reply, -, hstage, hfrom⟩ :=
        getOrFetchPayload_answered (cacheKept_run hrun) hfetch
      have hhit : getOrFetchPayload (logged ask) c s' = (.ok stage, s') := by
        rw [getOrFetchPayload, cached_eq_some_iff.mpr hentry]
      exact ⟨reply, stage, hfrom, hstage, hvalid,
        runCalls_cached hbetween hentry,
        getEncodedPayload_eq_some_iff.mpr ⟨stage, hhit, rfl⟩⟩
    · intro before c after s hcalls hrun p s' hp request r stage hfrom hstatus
      obtain ⟨r', hfrom', hsuccess, -⟩ :=
        hpayload before c after s hcalls hrun p s' hp
      exact absurd hstatus (not_teapot_of_success hfrom hfrom' hsuccess)

/-- The calls of one derivation step, on a teapot that calls the
certificate stale: it is reported valid, and its payload is empty. -/
theorem not_faithful_staleReply :
    ¬ Faithful (fun _ (s : Unit) => (staleReply, s))
      [.getValidity oneElement, .getEncodedPayload oneElement] () := by
  intro h
  let asked : OnlineEigenDAPreimageProvider (Unit × List Exchange) :=
    ⟨((), [⟨oneElement.toRlpBytes, staleReply⟩]),
      some (oneElement, ⟨true, false, []⟩)⟩
  have hrun : runCalls (fun _ (s : Unit) => (staleReply, s))
      [.getValidity oneElement] (fresh ()) = some asked := by
    simp [runCalls, runCall, getValidity, getOrFetchPayload, cached, fresh,
      logged, fetchDataFromProxy_staleReply, asked]
  have hpayload : getEncodedPayload
      (logged fun _ (s : Unit) => (staleReply, s)) oneElement asked
      = some (.ok ⟨[]⟩, asked) := by
    simp [getEncodedPayload, getOrFetchPayload, cached, asked]
  have hlast : answeredFrom asked = some ⟨oneElement.toRlpBytes, staleReply⟩ :=
    @answeredFrom_made Unit () [] ⟨oneElement.toRlpBytes, staleReply⟩ _ _
      fetchDataFromProxy_staleReply
  obtain ⟨r, hfrom, hsuccess, -⟩ := h.payload [.getValidity oneElement]
    oneElement [] asked rfl hrun ⟨[]⟩ asked hpayload
  rw [hlast, Option.some.injEq, Exchange.mk.injEq] at hfrom
  rw [← ProxyReply.response.inj hfrom.2] at hsuccess
  cases hsuccess

end OnlineEigenDAPreimageProvider

end Hokulea
