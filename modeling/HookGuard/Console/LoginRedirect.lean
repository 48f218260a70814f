import HookGuard.Console.LoginFailures
import HookGuard.Lib.UrlOrigin

/- Where a login leads (`middleware.safe_next`, `handle_login`). `safe_next` lets a path
   through that begins with one slash and goes on with neither a slash nor a backslash. What
   a browser would drop between the two, a tab or a line end, is quoted before it is sent,
   and so are spaces at the end and every later backslash: the `Location` begins with one
   slash for the browser, too, and stays on the origin of the Console. -/
namespace HookGuard
open Py store auth

namespace auth

theorem safeNext_rooted (nextPath : Str) : ∃ rest, safeNext nextPath = 47 :: rest ∧
    ∀ c ∈ rest.head?, Whatwg.isSlash c = false := by
  have hdashboard : ∃ rest, lit "/dashboard" = 47 :: rest ∧
      ∀ c ∈ rest.head?, Whatwg.isSlash c = false := ⟨lit "dashboard", by decide⟩
  unfold safeNext
  split
  · exact hdashboard
  · next hpath =>
    split
    · exact hdashboard
    · next hbackslash =>
      rw [not_or, not_or, Bool.not_eq_false] at hpath
      obtain ⟨-, hslash, hslashes⟩ := hpath
      obtain ⟨rest, hrest⟩ := startsWith_iff.mp hslash
      subst hrest
      refine ⟨rest, rfl, ?_⟩
      intro c hc
      cases rest with
      | nil => cases hc
      | cons d rest =>
        obtain rfl := Option.some.inj hc
        have hne : d ≠ 47 := by
          rintro rfl
          exact hslashes (startsWith_iff.mpr ⟨rest, rfl⟩)
        have hne' : d ≠ 92 := by
          rintro rfl
          exact hbackslash (startsWith_iff.mpr ⟨rest, rfl⟩)
        simp [Whatwg.isSlash, hne, hne']

end auth

namespace console

/-! ## The header -/

theorem locationHeader_plain {url header : Str} (h : locationHeader url = some header) :
    ∀ c ∈ header, 32 < c ∧ c ≠ 92 := by
  intro c hc
  obtain hsafe | hnamed | rfl := quote_safe h c hc
  · simp only [alwaysSafe, isAsciiAlpha, isAsciiDigit, Bool.or_eq_true, Bool.and_eq_true,
      decide_eq_true_eq, beq_iff_eq] at hsafe
    omega
  · have hall : ∀ d ∈ lit ":/%#?=@[]!$&'()*+,", 32 < d ∧ d ≠ 92 := by decide
    exact hall c hnamed
  · decide

/-- A path with one slash in front is sent as such a path. -/
theorem locationHeader_rooted {rest header : Str}
    (hslash : ∀ c ∈ rest.head?, Whatwg.isSlash c = false)
    (h : locationHeader (47 :: rest) = some header) :
    ∃ sent, header = 47 :: sent ∧ ∀ c ∈ sent.head?, Whatwg.isSlash c = false := by
  rw [locationHeader, quote_safe_cons (by decide) (by decide), Option.map_eq_some_iff] at h
  obtain ⟨sent, hsent, rfl⟩ := h
  refine ⟨sent, rfl, ?_⟩
  intro c hc
  cases rest with
  | nil =>
    obtain rfl := Option.some.inj hsent
    cases hc
  | cons d rest =>
    -- what follows the slash is sent as it is, or quoted
    obtain ⟨first, behind, rfl, hfirst⟩ := quote_cons hsent
    obtain rfl := Option.some.inj hc
    obtain rfl | rfl := hfirst
    · exact hslash first rfl
    · decide

/-- Whatever is asked for, the location that is sent is one of the Console's own. -/
theorem resolve_safeNext {nextPath header : Str}
    (h : locationHeader (safeNext nextPath) = some header)
    (absolute : Str → Str → Option Whatwg.Origin) (base : Whatwg.Base) :
    Whatwg.resolve absolute base header = some base.origin := by
  have hplain := locationHeader_plain h
  obtain ⟨rest, hrest, hslash⟩ := safeNext_rooted nextPath
  rw [hrest] at h
  obtain ⟨sent, rfl, hsent⟩ := locationHeader_rooted hslash h
  exact Whatwg.resolve_rooted hsent fun c hc => (hplain c (List.mem_cons_of_mem 47 hc)).1

/-! ## The handler -/

section Login
variable {prim : Primitives} {t : Tables} {request : Request} {form : Form} {input : Input}
  {limiter : Limiter}

/-- The plan redirects to a place that can be sent, if it redirects at all. -/
structure RedirectsTo (p : Plan) (url : Str) : Prop where
  uncaught : ∀ why, p.caught why = none
  redirect : ∀ url' cookie, p.answer = .ok (.redirect url' cookie) →
    url' = url ∧ ∃ header, locationHeader url = some header

theorem RedirectsTo.of_not {p : Plan} {url : Str} (hcaught : ∀ why, p.caught why = none)
    (h : ∀ url' cookie, p.answer ≠ .ok (.redirect url' cookie)) : RedirectsTo p url :=
  ⟨hcaught, fun url' cookie heq => absurd heq (h url' cookie)⟩

theorem loggedIn_redirects {email nextPath : Str} {userId : Nat} :
    RedirectsTo (loggedIn prim request input email userId nextPath) nextPath := by
  unfold loggedIn
  simp only
  cases hheader : locationHeader nextPath with
  | none => exact .of_not (fun _ => rfl) (by simp)
  | some header =>
    simp only
    unfold withSession
    split
    · exact .of_not (fun _ => rfl) (by simp)
    · refine ⟨fun _ => rfl, ?_⟩
      intro url' cookie hanswer
      cases hanswer
      exact ⟨rfl, header, hheader⟩

theorem authenticate_redirects {email password nextPath : Str} :
    RedirectsTo (authenticate prim t request input email password nextPath).1 nextPath := by
  unfold authenticate
  split
  · exact .of_not (fun _ => rfl) (by simp [Plan.raise])
  · split
    · split
      · exact .of_not (fun _ => rfl) (by simp [Plan.raise])
      · exact .of_not (fun _ => rfl) (by simp [loginRejected])
    · simp only
      split
      · exact .of_not (fun _ => rfl) (by simp [loginRejected])
      · split
        · exact .of_not (fun _ => rfl) (by simp [Plan.raise])
        · exact .of_not (fun _ => rfl) (by simp [loginRejected])
        · exact loggedIn_redirects

theorem handleLogin_redirects : RedirectsTo (handleLogin prim t request form input limiter)
    (safeNext (form.get (lit "next") [])) := by
  unfold handleLogin loginTraced
  simp only
  split
  · exact .of_not (fun _ => rfl) (by simp [Plan.raise])
  · exact .of_not (fun _ => rfl) (by simp [tooManyRequests])
  · exact ⟨authenticate_redirects.uncaught, authenticate_redirects.redirect⟩

/-- A login that succeeds redirects to what `safe_next` makes of the form's `next`, whatever
    that is, and a browser is led to the Console's own origin by it. -/
theorem login_redirects_home {url : Str} {cookie : Cookie}
    (h : loginResponse prim t request form input limiter = .ok (.redirect url cookie)) :
    url = safeNext (form.get (lit "next") []) ∧
      ∃ header, locationHeader url = some header ∧
        ∀ absolute base, Whatwg.resolve absolute base header = some base.origin := by
  have hredirects : RedirectsTo (handleLogin prim t request form input limiter) _ :=
    handleLogin_redirects
  have hanswer : (handleLogin prim t request form input limiter).answer =
      .ok (.redirect url cookie) := by
    rw [loginResponse, Plan.answered] at h
    split at h
    · exact h
    -- a statement that is refused is not answered
    · simp [hredirects.uncaught] at h
  obtain ⟨rfl, header, hheader⟩ := hredirects.redirect url cookie hanswer
  exact ⟨rfl, header, hheader, resolve_safeNext hheader⟩

end Login

/-- Ann logs in with a tab between two slashes. -/
def tabbedLogin : Form := .ofFields [("email", "ann@example.com"),
  ("password", "a long password"), ("next", "/\t/evil.example")]

theorem login_redirects_home_tabbed :
    loginResponse .plain (annTables true) (.withToken "") tabbedLogin {} auth.loginLimiter =
        .ok (.redirect (lit "/\t/evil.example") (.set [])) ∧
      ∃ header, locationHeader (lit "/\t/evil.example") = some header ∧
        ∀ absolute base, Whatwg.resolve absolute base header = some base.origin := by
  have hlogin : loginResponse .plain (annTables true) (.withToken "") tabbedLogin {}
      auth.loginLimiter = .ok (.redirect (lit "/\t/evil.example") (.set [])) := by
    decide +kernel
  exact ⟨hlogin, (login_redirects_home hlogin).2⟩

end console
end HookGuard
