import HookGuard.Console.Effects

/- The statements of the routes page and of the retention setting, as they are written.

   `Configured` is the inversion that `Effect.configured` leaves out: which handler has
   which of them executed, with what it checked (`plan_configured`). -/
namespace HookGuard
open Py store auth

namespace console

/-- What a handler of the configuration has executed. -/
inductive Configured (prim : Primitives) (t : Tables) (form : Form) (input : Input) :
    Handler → Statement → Prop
  | retention (days : Int) : Configured prim t form input .retentionChange
      (.setSetting (lit "retention_days") (intStr days))
  | created (valid : validateEndpoint prim (formEndpoint form) = .ok none) :
      Configured prim t form input .endpointCreate (.createEndpoint { formEndpoint form with
        createdAt := input.created.unixMs, updatedAt := input.created.unixMs })
  | updated {id : Nat} {existing : Endpoint} (found : t.endpoints.get id = some existing)
      (valid : validateEndpoint prim (formEndpoint form) = .ok none) :
      Configured prim t form input (.endpointUpdate id) (.updateEndpoint id
        { formEndpoint form with
          createdAt := existing.createdAt, active := existing.active
          updatedAt := input.created.unixMs })
  | toggled {id : Nat} {endpoint : Endpoint} (found : t.endpoints.get id = some endpoint) :
      Configured prim t form input (.endpointToggleActive id)
        (.setEndpointActive id (!endpoint.active) input.created.unixMs)
  | deleted {id : Nat} {post : Bool} : Configured prim t form input (.endpointDelete id post)
      (.deleteEndpoint id)

/-- Of the statements of a plan, those of the configuration are the handler's. -/
def Configuring (prim : Primitives) (t : Tables) (form : Form) (input : Input) (h : Handler)
    (p : Plan) : Prop :=
  ∀ st ∈ p.statements, Configures st → Configured prim t form input h st

section Plans
variable {prim : Primitives} {t : Tables} {request : Request} {snapshot : Option Snapshot}
  {form : Form} {input : Input} {h : Handler}

theorem answered_configuring {answer : Except Exc Answer} :
    Configuring prim t form input h { answer } :=
  fun _ hst => absurd hst List.not_mem_nil

theorem requireCsrf_configuring {given : Form} {rest : Snapshot → Plan}
    (hrest : ∀ s, Configuring prim t form input h (rest s)) :
    Configuring prim t form input h (requireCsrf request snapshot given rest) :=
  requireCsrf_induction (fun _ => answered_configuring) fun s _ _ => hrest s

theorem lookUp_configuring {v : Value} {rest : Plan}
    (hrest : Configuring prim t form input h rest) :
    Configuring prim t form input h (Plan.lookUp v rest) :=
  Plan.lookUp_induction (fun _ => answered_configuring) hrest

theorem effect_configuring {sts : List Statement}
    (heff : Effect prim t request snapshot form input h sts) (hno : h.authenticated = false) :
    ∀ st ∈ sts, ¬ Configures st := by
  cases heff with
  | configured s given auth st acts => exact absurd (hno.symm.trans acts) (by decide)
  | nothing => exact nofun
  | _ =>
    intro st hst
    simp only [List.mem_cons, List.not_mem_nil, or_false] at hst
    rcases hst with rfl | rfl | rfl | rfl
    all_goals exact fun h => h

theorem sole_configuring {st : Statement} {answer : Except Exc Answer}
    {caught : Refusal → Option Answer} (hst : Configured prim t form input h st) :
    Configuring prim t form input h { statements := [st], answer, caught } := by
  intro st' hst' _
  rw [List.mem_singleton.mp hst']
  exact hst

theorem handleEndpointCreate_configuring :
    Configuring prim t form input .endpointCreate
      (handleEndpointCreate prim request snapshot form input) := by
  apply requireCsrf_configuring
  intro s
  split
  · exact answered_configuring
  · exact answered_configuring
  · next hvalid => exact sole_configuring (.created hvalid)

theorem handleEndpointUpdate_configuring {id : Nat} :
    Configuring prim t form input (.endpointUpdate id)
      (handleEndpointUpdate prim t request snapshot form input id) := by
  apply requireCsrf_configuring
  intro s
  apply lookUp_configuring
  split
  · exact answered_configuring
  · next hfound =>
    split
    · exact answered_configuring
    · exact answered_configuring
    · next hvalid => exact sole_configuring (.updated hfound hvalid)

theorem handleEndpointToggleActive_configuring {id : Nat} :
    Configuring prim t form input (.endpointToggleActive id)
      (handleEndpointToggleActive t request snapshot form input id) := by
  apply requireCsrf_configuring
  intro s
  apply lookUp_configuring
  split
  · exact answered_configuring
  · next hfound => exact sole_configuring (.toggled hfound)

theorem handleRetentionChange_configuring :
    Configuring prim t form input .retentionChange
      (handleRetentionChange request snapshot form) := by
  apply requireCsrf_configuring
  intro s
  split
  · exact answered_configuring
  · split
    · exact answered_configuring
    · exact sole_configuring (.retention _)

theorem others_configuring {p : Plan} (hp : ∀ st ∈ p.statements, ¬ Configures st) :
    Configuring prim t form input h p :=
  fun st hst hconfigures => absurd hconfigures (hp st hst)

theorem handlePasswordChange_configuring :
    Configuring prim t form input .passwordChange
      (handlePasswordChange prim request snapshot form input) := by
  apply requireCsrf_configuring
  intro s
  simp only
  split
  · exact answered_configuring
  · exact answered_configuring
  · split
    · exact answered_configuring
    · split
      · exact answered_configuring
      · split
        · exact answered_configuring
        · apply others_configuring
          simp [Configures, record]

theorem handleUserCreate_configuring :
    Configuring prim t form input .userCreate
      (handleUserCreate prim t request snapshot form input) := by
  apply requireCsrf_configuring
  intro s
  simp only
  split
  · exact answered_configuring
  · split
    · exact answered_configuring
    · split
      · exact answered_configuring
      · split
        · exact answered_configuring
        · apply others_configuring
          simp [Configures, record]

end Plans

/-- A statement of the configuration is its handler's. -/
theorem plan_configured (prim : Primitives) (t : Tables) (limiter : Limiter) (p : Pending)
    (form : Form) (input : Input) :
    Configuring prim t form input p.handler (plan prim t limiter p form input) := by
  have heff := plan_effect prim t limiter p form input
  obtain ⟨handler, request, snapshot, entered, passed⟩ := p
  cases handler with
  | login => exact others_configuring (effect_configuring heff rfl)
  | signup => exact others_configuring (effect_configuring heff rfl)
  | resetPassword => exact others_configuring (effect_configuring heff rfl)
  | view => exact others_configuring (effect_configuring heff rfl)
  | logout =>
    apply requireCsrf_configuring
    intro s
    apply others_configuring
    simp [Configures, record]
  | passwordChange => exact handlePasswordChange_configuring
  | sessionRevoke target =>
    apply requireCsrf_configuring
    intro s
    split
    · apply others_configuring
      simp [Configures, record]
    · exact answered_configuring
  | sessionRevokeOthers =>
    apply requireCsrf_configuring
    intro s
    apply others_configuring
    simp [Configures, record]
  | retentionChange => exact handleRetentionChange_configuring
  | userCreate => exact handleUserCreate_configuring
  | userDeactivate target =>
    apply requireCsrf_configuring
    intro s
    apply lookUp_configuring
    split
    · exact answered_configuring
    · split
      · exact answered_configuring
      · apply others_configuring
        simp [Configures]
  | endpointCreate => exact handleEndpointCreate_configuring
  | endpointUpdate id => exact handleEndpointUpdate_configuring
  | endpointDelete id post =>
    apply requireCsrf_configuring
    intro s
    exact sole_configuring .deleted
  | endpointToggleActive id => exact handleEndpointToggleActive_configuring

end console
end HookGuard
