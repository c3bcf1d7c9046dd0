import VermouthGateway.Cluster.Handlers
import VermouthGateway.Foundation.Runs

/-!
# Runs of a node

Between the entries it applies a node serves requests, and its shutdowns come
to an end at some point.  `Step` has one case for each.

* `boot_sound`: the state a node starts from.
* `step_sound`: every step keeps it sound.
-/

namespace VermouthGateway
namespace Cluster

open Go Proxy Balancing Runs

/-- What happens on a node. -/
inductive Event
  | apply (entry : LogEntry)
  | serve (port : Int) (peerAvailable : Bool) (allow : QpsRateLimiter → Bool)
      (r : Utils.Request)
  | finish (port : Int)

/-- The steps of a node.  An applied entry is one whose `Apply` returned: one that panics
ends the node, and one that waits leaves it waiting. -/
inductive Step : StateContext → Event → StateContext → Prop
  | apply {ctx ctx' : StateContext} {entry : LogEntry}
      (hrun : EStateM.run (StateContext.apply entry) ctx = .ok () ctx') :
      Step ctx (.apply entry) ctx'
  | serve (ctx : StateContext) (port : Int) (peerAvailable : Bool)
      (allow : QpsRateLimiter → Bool) (r : Utils.Request) :
      Step ctx (.serve port peerAvailable allow r) (ctx.serve port peerAvailable allow r)
  | finish {ctx : StateContext} {port : Int} (hpending : .shuttingDown port ∈ ctx.goroutines) :
      Step ctx (.finish port) (StateContext.finishShutdown port ctx)

theorem step_sound {ctx ctx' : StateContext} {event : Event} (h : ctx.Sound)
    (hstep : Step ctx event ctx') : ctx'.Sound := by
  cases hstep with
  | apply hrun => exact StateContext.apply_sound h hrun
  | serve port peerAvailable allow r =>
      exact StateContext.serve_sound h port peerAvailable allow r
  | @finish port hpending => exact StateContext.finishShutdown_sound h port

namespace StateContext

variable {ctx ctx' : StateContext}

/-- The tables `BuildHttpReverseProxyFromConfig` makes. -/
theorem sound_buildHttpReverseProxy {args : HttpProxyArgs} {shutdown : Nat}
    {proxy : HttpReverseProxy} (h : buildHttpReverseProxy args shutdown = .ok proxy) :
    Proxy.Sound proxy := by
  rw [buildHttpReverseProxy] at h
  cases hnew : newHttpReverseProxy args shutdown with
  | error e =>
      rw [hnew] at h
      cases h
  | ok fresh =>
  rw [hnew] at h
  dsimp only at h
  split at h
  · next hrun =>
      cases h
      refine run_forEach_ok hrun (sound_newHttpReverseProxy hnew) ?_
      intro path _ proxy₁ u proxy₂ hsound hround
      obtain ⟨u₁, proxy₃, hadd, hmode⟩ := run_bind_ok hround
      have h₃ := RoutingCall.run_sound (.addPrefix path.pattern path.balanceMode path.hosts
        path.static) hsound hadd
      cases hmode
      obtain ⟨p, hcopies⟩ := h₃.copies
      exact ⟨h₃.free, h₃.type, ⟨p, hcopies.router, hcopies.paths, hcopies.static⟩, h₃.limiters,
        h₃.root, h₃.record, h₃.speeds⟩
  · cases h

/-- A built proxy has its port and the channel made for it. -/
theorem buildHttpReverseProxy_server {args : HttpProxyArgs} {shutdown : Nat}
    {proxy : HttpReverseProxy} (h : buildHttpReverseProxy args shutdown = .ok proxy) :
    proxy.port = args.port ∧ proxy.shutdown = some shutdown := by
  rw [buildHttpReverseProxy] at h
  cases hnew : newHttpReverseProxy args shutdown with
  | error e =>
      rw [hnew] at h
      cases h
  | ok fresh =>
  rw [hnew] at h
  dsimp only at h
  obtain ⟨-, hport, hchan⟩ := newHttpReverseProxy_ok hnew
  split at h
  · next hrun =>
      cases h
      refine run_forEach_ok (P := fun proxy => proxy.port = args.port ∧
        proxy.shutdown = some shutdown) hrun ⟨hport, hchan⟩ ?_
      rintro path - proxy₁ u proxy₂ ⟨hport₁, hchan₁⟩ hround
      obtain ⟨u₁, proxy₃, hadd, hmode⟩ := run_bind_ok hround
      obtain ⟨hsame, -⟩ := RoutingCall.run_frame (.addPrefix path.pattern path.balanceMode
        path.hosts path.static) hadd
      cases hmode
      exact ⟨hsame.port.trans hport₁, hsame.shutdown.trans hchan₁⟩
  · cases h

theorem run_bootProxy_ok {args : HttpProxyArgs}
    (hrun : EStateM.run (bootProxy args) ctx = .ok () ctx') :
    ∃ proxy, buildHttpReverseProxy args ctx.nextChan = .ok proxy ∧
      ctx' = { ctx with
        httpReverseProxyList :=
          if proxy.port ∈ ctx.httpReverseProxyList then ctx.httpReverseProxyList
          else ctx.httpReverseProxyList.insert proxy.port proxy
        nextChan := ctx.nextChan + 1 } := by
  rw [bootProxy] at hrun
  obtain ⟨ctx₀, ctx₁, hget, hrun⟩ := run_bind_ok hrun
  cases hget
  obtain ⟨proxy, ctx₁, hbuild, hrun⟩ := run_bind_ok hrun
  cases hargs : buildHttpReverseProxy args ctx.nextChan with
  | error e =>
      rw [hargs] at hbuild
      cases hbuild
  | ok built =>
      rw [hargs] at hbuild
      cases hbuild
      obtain ⟨u, ctx₂, hset, hadd⟩ := run_bind_ok hrun
      cases hset
      refine ⟨proxy, rfl, ?_⟩
      rw [addHttpReverseProxy, EStateM.run_bind, EStateM.run_get] at hadd
      dsimp only at hadd
      rw [run_ite] at hadd
      split at hadd
      · next hport =>
          cases hadd
          rw [if_pos hport]
      · next hport =>
          cases hadd
          rw [if_neg hport]

theorem bootProxy_sound {args : HttpProxyArgs} (h : ctx.Sound)
    (hrun : EStateM.run (bootProxy args) ctx = .ok () ctx') : ctx'.Sound := by
  obtain ⟨proxy, hbuild, rfl⟩ := run_bootProxy_ok hrun
  split
  · exact h
  · exact h.insert (sound_buildHttpReverseProxy hbuild) _ _ _

theorem runProxy_sound {proxy : HttpReverseProxy} (h : ctx.Sound)
    (hrun : EStateM.run (runProxy proxy) ctx = .ok () ctx') : ctx'.Sound := by
  rw [runProxy, EStateM.run_bind, EStateM.run_get] at hrun
  dsimp only at hrun
  cases hshutdown : proxy.shutdown with
  | none =>
      rw [hshutdown] at hrun
      cases hrun
      exact h
  | some shutdown =>
      rw [hshutdown] at hrun
      dsimp only at hrun
      rw [run_ite] at hrun
      split at hrun
      · cases hrun
        exact h
      · cases hrun
        exact h

/-- A node that started from a configuration is sound. -/
theorem boot_sound {confs : List HttpProxyArgs} {order : RangeOrder Int HttpReverseProxy}
    {listens : Nat → Bool}
    (hrun : EStateM.run (boot confs order) (newStateContext listens) = .ok () ctx) :
    ctx.Sound := by
  rw [boot] at hrun
  obtain ⟨u, ctx₁, hconfs, hrun⟩ := run_bind_ok hrun
  have h₁ : ctx₁.Sound := run_forEach_ok hconfs (sound_newStateContext listens)
    fun args _ _ _ _ hsound hround => bootProxy_sound hsound hround
  obtain ⟨ctx₂, ctx₃, hget, hrun⟩ := run_bind_ok hrun
  cases hget
  refine run_forEach_ok hrun h₁ ?_
  intro port _ ctx₂ u ctx₃ hsound hround
  split at hround
  · cases hround
    exact hsound
  · exact runProxy_sound hsound hround

end StateContext
end Cluster
end VermouthGateway
