import HookGuard.Gateway.PayPal

/- The certificates a PayPal verifier trusts, over a run of calls.

   `verifyTraced` is `verify` with what it does besides answering: the URLs it asks the
   HTTP client for, what came of getting the certificate, and the key it checks the
   signature with. Every entry of the cache is backed by a fetch of
   its URL whose answer parsed to its certificate (`Backed`), which each call keeps; so a
   key that checks a signature is always one PayPal's host served for that URL within the
   hour (`cert_trust`). A fetch counts from the reading of the clock the cache takes once
   the answer is in. -/
namespace HookGuard
open Py

namespace paypal
section Trust
variable {Certificate PublicKey : Type}

variable {lib : Libraries Certificate PublicKey}

/-! ## What one call can do -/

/-- The fetch was answered 200, with a bundle that parses to the certificate. -/
def Fetch.Yields (lib : Libraries Certificate PublicKey) (f : Fetch) (cert : Certificate) : Prop :=
  ∃ response, f.answer = .ok response ∧ response.statusCode = 200 ∧
    parseCertChain lib (response.content.take CERT_MAX_BYTES) = .ok cert

/-- Every entry of the cache is what a logged fetch of its URL yielded. -/
def Backed (lib : Libraries Certificate PublicKey) (log : List Fetch)
    (cache : CertCache Certificate) : Prop :=
  ∀ e ∈ cache.entries, ∃ f ∈ log, f.url = e.1 ∧ f.time = e.2.2 ∧ f.Yields lib e.2.1

theorem CertCache.get_some {cache : CertCache Certificate} {url : Str} {now : Datetime}
    {cert : Certificate} (h : cache.get url now = some cert) :
    ∃ time, (url, cert, time) ∈ cache.entries ∧ now.us - time.us ≤ CERT_TTL := by
  unfold CertCache.get at h
  split at h
  · cases h
  · next c time hlookup =>
    split at h
    · cases h
    · next hfresh =>
      obtain rfl : c = cert := Option.some.inj h
      obtain ⟨before, after, hentries, -⟩ := List.lookup_eq_some_iff.mp hlookup
      exact ⟨time, by simp [hentries], by omega⟩

theorem Backed.set {log : List Fetch} {cache : CertCache Certificate} (h : Backed lib log cache)
    {f : Fetch} {cert : Certificate} (hf : f.Yields lib cert) :
    Backed lib (log ++ [f]) (cache.set f.url cert f.time) := by
  intro e he
  rcases List.mem_cons.mp he with rfl | he
  · exact ⟨f, by simp, rfl, rfl, hf⟩
  · obtain ⟨f', hmem, hbacks⟩ := h e (List.mem_filter.mp he).1
    exact ⟨f', List.mem_append_left _ hmem, hbacks⟩

theorem Backed.append {log : List Fetch} {cache : CertCache Certificate} (h : Backed lib log cache)
    (more : List Fetch) : Backed lib (log ++ more) cache := by
  intro e he
  obtain ⟨f, hmem, hbacks⟩ := h e he
  exact ⟨f, List.mem_append_left _ hmem, hbacks⟩

theorem certTraced_cases (lib : Libraries Certificate PublicKey)
    (cache : CertCache Certificate) (url : Str) (moment : Moment) :
    (∃ c, cache.get url moment.cacheRead = some c ∧
      certTraced lib cache url moment = ((.ok c, cache), [], moment.cacheRead)) ∨
    (∃ c, checkCertHost lib.bracketedHost url = .ok () ∧
      Fetch.Yields lib ⟨url, moment.clientGet url, moment.cacheWrite⟩ c ∧
      certTraced lib cache url moment = ((.ok c, cache.set url c moment.cacheWrite),
        [⟨url, moment.clientGet url, moment.cacheWrite⟩], moment.cacheWrite)) ∨
    (∃ e, certTraced lib cache url moment = ((.error e, cache), [], moment.cacheRead)) ∨
    (∃ e, checkCertHost lib.bracketedHost url = .ok () ∧
      certTraced lib cache url moment = ((.error e, cache),
        [⟨url, moment.clientGet url, moment.cacheWrite⟩], moment.cacheRead)) := by
  unfold certTraced
  cases cache.get url moment.cacheRead with
  | some c => exact .inl ⟨c, rfl, rfl⟩
  | none =>
    cases checkCertHost lib.bracketedHost url with
    | error e => exact .inr (.inr (.inl ⟨e, rfl⟩))
    | ok u =>
      -- the client is asked
      cases hget : moment.clientGet url with
      | error failure => cases failure <;> exact .inr (.inr (.inr ⟨_, rfl, rfl⟩))
      | ok response =>
        simp only
        split
        · exact .inr (.inr (.inr ⟨_, trivial, rfl⟩))
        · next hstatus =>
          cases hparse : parseCertChain lib (response.content.take CERT_MAX_BYTES) with
          | error e => exact .inr (.inr (.inr ⟨e, trivial, rfl⟩))
          | ok c =>
            exact .inr (.inl ⟨c, trivial, ⟨response, rfl, not_not.mp hstatus, hparse⟩, rfl⟩)

/-- What one call keeps and promises, from a verifier whose cache is backed. -/
structure Trusted (lib : Libraries Certificate PublicKey) (log : List Fetch)
    (v : PayPalVerifier Certificate)
    (after : (Except Exc Unit × PayPalVerifier Certificate) × Trace Certificate PublicKey) :
    Prop where
  /-- Only URLs that pass the host check are asked for. -/
  asked : ∀ f ∈ after.2.asked, checkCertHost lib.bracketedHost f.url = .ok ()
  /-- A key that checks a signature was served for its URL within the hour. -/
  checked : ∀ url key time, after.2.checked = some (url, key, time) →
    ∃ f ∈ log ++ after.2.asked, ∃ cert, f.url = url ∧ f.Yields lib cert ∧
      lib.publicKey cert = some key ∧ f.time.us ≤ time.us ∧ time.us - f.time.us ≤ CERT_TTL
  /-- Raising while getting the certificate leaves the cache as it was. -/
  raised : ∀ e, after.2.obtained = some (.error e) → after.1.2.certs = v.certs

/-- One call on a verifier whose cache is backed by fetches that are in the past. -/
theorem verifyTraced_trusted {log : List Fetch} {v : PayPalVerifier Certificate}
    (hbacked : Backed lib log v.certs) (body : Bytes) (headers : Headers) {moment : Moment}
    (hpast : ∀ f ∈ log, f.time.us ≤ moment.cacheRead.us) :
    Trusted lib log v (verifyTraced lib v body headers moment) ∧
      Backed lib (log ++ (verifyTraced lib v body headers moment).2.asked)
        (verifyTraced lib v body headers moment).1.2.certs ∧
      ∀ f ∈ (verifyTraced lib v body headers moment).2.asked, f.time = moment.cacheWrite := by
  unfold verifyTraced
  simp only
  split
  · -- a header is missing
    exact ⟨⟨by simp, by simp, by simp⟩, by simpa using hbacked, by simp⟩
  split
  · -- another algorithm
    exact ⟨⟨by simp, by simp, by simp⟩, by simpa using hbacked, by simp⟩
  generalize (headers.get (lit "paypal-cert-url")).getD [] = url
  rcases certTraced_cases lib v.certs url moment with
    ⟨c, hget, heq⟩ | ⟨c, hhost, hyields, heq⟩ | ⟨e, heq⟩ | ⟨e, hhost, heq⟩
  · -- from the cache: its entry is backed, and not older than the hour
    obtain ⟨time, hmem, hfresh⟩ := CertCache.get_some hget
    obtain ⟨f, hf, hurl, htime, hfetch⟩ := hbacked _ hmem
    have hle := hpast f hf
    simp only [heq]
    cases hkey : lib.publicKey c with
    | none => exact ⟨⟨by simp, by simp, by simp⟩, by simpa using hbacked, by simp⟩
    | some key =>
      refine ⟨⟨by simp, ?_, by simp⟩, by simpa using hbacked, by simp⟩
      intro url' key' time' h
      obtain ⟨rfl, rfl, rfl⟩ : url = url' ∧ key = key' ∧ moment.cacheRead = time' := by
        simpa using h
      exact ⟨f, by simpa using hf, c, hurl, hfetch, hkey, hle, htime ▸ hfresh⟩
  · -- fetched: it is the last of the log
    simp only [heq]
    have hset := hbacked.set hyields
    cases hkey : lib.publicKey c with
    | none => exact ⟨⟨by simpa using hhost, by simp, by simp⟩, hset, by simp⟩
    | some key =>
      refine ⟨⟨by simpa using hhost, ?_, by simp⟩, hset, by simp⟩
      intro url' key' time' h
      obtain ⟨rfl, rfl, rfl⟩ : url = url' ∧ key = key' ∧ moment.cacheWrite = time' := by
        simpa using h
      refine ⟨_, List.mem_append_right _ (List.mem_singleton_self _), c, rfl, hyields, hkey,
        Int.le_refl _, ?_⟩
      simp [CERT_TTL]
  · simp only [heq]
    exact ⟨⟨by simp, by simp, by simp⟩, by simpa using hbacked, by simp⟩
  · -- asked for, and nothing came of it
    simp only [heq]
    exact ⟨⟨by simpa using hhost, by simp, by simp⟩, hbacked.append _, by simp⟩

/-! ## Runs -/

structure Call where
  body : Bytes
  headers : Headers
  moment : Moment

/-- A verifier, and every fetch it made. -/
structure History (Certificate : Type) where
  verifier : PayPalVerifier Certificate
  log : List Fetch := []

def History.step (lib : Libraries Certificate PublicKey) (σ : History Certificate) (c : Call) :
    History Certificate :=
  let r := verifyTraced lib σ.verifier c.body c.headers c.moment
  ⟨r.1.2, σ.log ++ r.2.asked⟩

def History.run (lib : Libraries Certificate PublicKey) (σ : History Certificate)
    (calls : List Call) : History Certificate :=
  calls.foldl (History.step lib) σ

/-- The readings of the clock, in turn. -/
def readings (calls : List Call) : List Int :=
  calls.flatMap fun c => [c.moment.cacheRead.us, c.moment.cacheWrite.us]

/-- Calls keep the cache backed, and what they fetched is in the past of what follows. -/
theorem run_backed {calls : List Call} {later : List Int} (σ : History Certificate)
    (hclock : (readings calls ++ later).Pairwise (· ≤ ·))
    (hbacked : Backed lib σ.log σ.verifier.certs)
    (hpast : ∀ f ∈ σ.log, ∀ t ∈ readings calls ++ later, f.time.us ≤ t) :
    Backed lib (σ.run lib calls).log (σ.run lib calls).verifier.certs ∧
      ∀ f ∈ (σ.run lib calls).log, ∀ t ∈ later, f.time.us ≤ t := by
  induction calls generalizing σ with
  | nil => exact ⟨hbacked, hpast⟩
  | cons c calls ih =>
    have hsplit : readings (c :: calls) ++ later =
        c.moment.cacheRead.us :: c.moment.cacheWrite.us :: (readings calls ++ later) := rfl
    rw [hsplit, List.pairwise_cons, List.pairwise_cons] at hclock
    obtain ⟨-, hwrite, hrest⟩ := hclock
    have hread : ∀ f ∈ σ.log, f.time.us ≤ c.moment.cacheRead.us := fun f hf =>
      hpast f hf _ (by simp [hsplit])
    obtain ⟨-, hkept, htimes⟩ := verifyTraced_trusted hbacked c.body c.headers hread
    refine ih _ hrest hkept ?_
    intro f hf t ht
    rcases List.mem_append.mp hf with hf | hf
    · exact hpast f hf t (by rw [hsplit]; simp only [List.mem_cons]; exact .inr (.inr ht))
    · rw [htimes f hf]
      exact hwrite t ht

/-- In any run on a verifier that was just built, at readings of the clock that do not
    decrease: the client is asked only for URLs the host check accepts; a key that checks a
    signature is of a certificate that a fetch of that URL yielded within the hour; and a
    call that raises while getting the certificate leaves the cache alone. -/
theorem cert_trust (lib : Libraries Certificate PublicKey) {route : Route} {secret : Str}
    {v : PayPalVerifier Certificate} (hbuild : build route secret = .ok v) (calls : List Call)
    (c : Call) (hclock : (readings (calls ++ [c])).Pairwise (· ≤ ·)) :
    Trusted lib (History.run lib ⟨v, []⟩ calls).log (History.run lib ⟨v, []⟩ calls).verifier
      (verifyTraced lib (History.run lib ⟨v, []⟩ calls).verifier c.body c.headers c.moment) := by
  have hempty : v.certs.entries = [] := by
    unfold build at hbuild
    split at hbuild
    · cases hbuild
    · rw [← Except.ok.inj hbuild]
  have hbacked : Backed lib [] v.certs := by
    intro e he
    rw [hempty] at he
    exact absurd he (by simp)
  rw [readings, List.flatMap_append] at hclock
  obtain ⟨hkept, hpast⟩ := run_backed ⟨v, []⟩ hclock hbacked (by simp)
  exact (verifyTraced_trusted hkept c.body c.headers fun f hf => hpast f hf _ (by simp)).1

end Trust

/-- To these every certificate is good, and so is every signature. -/
def servingLibraries : Libraries Unit Unit where
  hmac _ message := message
  round := nearestDouble
  printable _ := false
  bracketedHost _ := none
  loadPem _ := .ok [()]
  verifyChain _ _ := .ok ()
  publicKey _ := some ()
  rsaVerify _ _ _ := true

/-- A signed request at the epoch, whose certificate is served. -/
def servedCall : Call where
  body := []
  headers := [(bytesLit "paypal-transmission-id", bytesLit "1"),
    (bytesLit "paypal-transmission-time", bytesLit "1"),
    (bytesLit "paypal-transmission-sig", bytesLit "AAAA"),
    (bytesLit "paypal-cert-url", bytesLit "https://api.paypal.com/c"),
    (bytesLit "paypal-auth-algo", bytesLit "SHA256withRSA")]
  moment := { now := .epoch, clientGet := fun _ => .ok ⟨200, [], none⟩ }

theorem servedRoute_build :
    build (⟨lit "/p", lit "paypal", lit "u", [], [], lit "w", by decide⟩ : Route) [] =
      .ok (⟨lit "w", {}, by decide⟩ : PayPalVerifier Unit) :=
  rfl

/-- Two such requests: the second is checked with the key the first one fetched. -/
theorem cert_trust_cached :
    let σ := History.run servingLibraries ⟨⟨lit "w", {}, by decide⟩, []⟩ [servedCall]
    let second := verifyTraced servingLibraries σ.verifier servedCall.body servedCall.headers
      servedCall.moment
    Trusted servingLibraries σ.log σ.verifier second ∧ σ.log.length = 1 ∧
      second.2.asked.length = 0 ∧ second.2.checked.isSome = true :=
  ⟨cert_trust servingLibraries servedRoute_build [servedCall] servedCall (by decide),
    rfl, rfl, rfl⟩

end paypal
end HookGuard
