import VermouthGateway.Foundation.Registers
import VermouthGateway.Proxy.Hosts
import VermouthGateway.Proxy.RoutingModel

/-!
# Aspects of a view

A routing call that can be made overwrites what it changes: an algorithm, or
whether a host serves, and what it writes does not depend on what was there.
Only a new prefix leaves what it finds.  An `Aspect` is a part of a view that
behaves so; `Aspect.route` says that each call acts on it as on a register.

* `algorithmAspect`: the algorithm.
* `hostAspect`: whether a host serves, for round robin over hosts that are
  listed once.
-/

namespace VermouthGateway
namespace Proxy

open Go Balancing Registers
open HttpReverseProxy

/-- The routing has the prefix that the call changes. -/
def RoutingCall.Fits (R : Routing) : RoutingCall → Prop
  | .addHost prefixPath _ => prefixPath ∈ R.routes
  | .removeHost prefixPath _ => prefixPath ∈ R.routes
  | .changeLb prefixPath _ => prefixPath ∈ R.routes
  | _ => True

def ProxyCall.Fits (R : Routing) : ProxyCall → Prop
  | .routing call => call.Fits R
  | _ => True

section Fitting

variable {proxy proxy' : HttpReverseProxy} {R : Routing}

/-- A call that returned had its prefix. -/
theorem RoutingCall.fits_of_run (call : RoutingCall) (h : Represents proxy R)
    (hrun : EStateM.run call.run proxy = .ok () proxy') : call.Fits R := by
  obtain ⟨-, ⟨p, hp, hroutes⟩, -⟩ := h
  have hmem : ∀ {p₁ q b}, proxy.prefixMapping = some p₁ → p₁.getBalancer q = some b →
      q ∈ R.routes := by
    intro p₁ q b hp₁ hb
    obtain rfl : p = p₁ := Option.some.inj (hp.router.symm.trans hp₁)
    rw [← hroutes]
    exact Finmap.mem_iff.mpr ⟨b.view, lookup_routes_of_balancer hb⟩
  cases call with
  | addPrefix prefixPath algo hosts isStatic => trivial
  | removePrefix prefixPath => trivial
  | addHost prefixPath host =>
      obtain ⟨-, p₁, b, b', hp₁, hb, -⟩ := run_updateHosts_ok hrun
      exact hmem hp₁ hb
  | removeHost prefixPath host =>
      obtain ⟨-, p₁, b, b', hp₁, hb, -⟩ := run_updateHosts_ok hrun
      exact hmem hp₁ hb
  | changeStatic prefixPath => trivial
  | changeLb prefixPath lb =>
      obtain ⟨-, p₁, b, b', hp₁, hb, -⟩ := run_changeLb_ok hrun
      exact hmem hp₁ hb

theorem ProxyCall.fits_of_run (call : ProxyCall) (h : Represents proxy R)
    (hrun : EStateM.run call.run proxy = .ok () proxy') : call.Fits R := by
  cases call with
  | routing call => exact call.fits_of_run h hrun
  | _ => trivial

end Fitting

/-! ## Aspects of a view -/

/-- Something that can be read off a view, and what the calls write to it, on
the views it is about. -/
structure Aspect (β : Type) where
  read : View → β
  fits : View → Prop
  fitsLb : String → Prop
  added : String → Option β
  removed : String → Option β
  chosen : String → Option β
  read_add : ∀ {v} host, fits v →
    fits (v.add host) ∧ read (v.add host) = (added host).getD (read v)
  read_remove : ∀ {v} host, fits v →
    fits (v.remove host) ∧ read (v.remove host) = (removed host).getD (read v)
  read_choose : ∀ {v lb}, fits v → fitsLb lb →
    fits ⟨lb, v.hosts⟩ ∧ read ⟨lb, v.hosts⟩ = (chosen lb).getD (read v)

/-- The algorithm. -/
def algorithmAspect : Aspect String where
  read := View.mode
  fits _ := True
  fitsLb _ := True
  added _ := none
  removed _ := none
  chosen lb := some lb
  read_add host _ := ⟨trivial, View.add_mode _ host⟩
  read_remove host _ := ⟨trivial, View.remove_mode _ host⟩
  read_choose _ _ := ⟨trivial, rfl⟩

/-- Round robin over hosts that are listed once. -/
def Plain (v : View) : Prop := v.mode = typeRoundRobin ∧ v.hosts.Nodup

theorem nodup_addedHosts {hosts : List String} (h : hosts.Nodup) (host : String) :
    (RoundRobin.addedHosts hosts host).Nodup := by
  rw [RoundRobin.addedHosts]
  split
  · exact h
  · next hnew =>
      rw [← List.concat_eq_append]
      exact h.concat hnew

theorem hosts_add_of_plain {v : View} (h : Plain v) (host : String) :
    (v.add host).hosts = RoundRobin.addedHosts v.hosts host := by
  rw [View.add, if_pos h.1]

theorem plain_add {v : View} (h : Plain v) (host : String) : Plain (v.add host) := by
  refine ⟨(View.add_mode v host).trans h.1, ?_⟩
  rw [hosts_add_of_plain h]
  exact nodup_addedHosts h.2 host

/-- Whether a host serves. -/
def hostAspect (host : String) : Aspect Bool where
  read v := decide (host ∈ v.hosts)
  fits := Plain
  fitsLb lb := lb = typeRoundRobin
  added other := if other = host then some true else none
  removed other := if other = host then some false else none
  chosen _ := none
  read_add {v} other h := by
    refine ⟨plain_add h other, ?_⟩
    rw [hosts_add_of_plain h]
    by_cases heq : other = host
    · rw [if_pos heq, Option.getD_some, decide_eq_true_iff, mem_addedHosts]
      exact Or.inr heq.symm
    · rw [if_neg heq, Option.getD_none, decide_eq_decide, mem_addedHosts]
      exact or_iff_left fun hhost => heq hhost.symm
  read_remove {v} other h := by
    refine ⟨⟨h.1, h.2.erase other⟩, ?_⟩
    show decide (host ∈ v.hosts.erase other) = _
    by_cases heq : other = host
    · rw [if_pos heq, Option.getD_some, decide_eq_false_iff_not, heq]
      exact h.2.not_mem_erase
    · rw [if_neg heq, Option.getD_none, decide_eq_decide]
      exact List.mem_erase_of_ne fun hhost => heq hhost.symm
  read_choose h hlb := ⟨⟨hlb, h.2⟩, rfl⟩

namespace Aspect

variable {β : Type} {a : Aspect β} {R : Routing}

/-- What a call does to the aspect of a prefix. -/
def op (a : Aspect β) (q : String) : RoutingCall → RegisterOp β
  | .addPrefix prefixPath algo hosts _ =>
      if q = prefixPath then .init (a.read ⟨algo, hosts⟩) else .keep
  | .removePrefix prefixPath => if q = prefixPath then .clear else .keep
  | .addHost prefixPath host => if q = prefixPath then .writeIf (a.added host) else .keep
  | .removeHost prefixPath host => if q = prefixPath then .writeIf (a.removed host) else .keep
  | .changeStatic _ => .keep
  | .changeLb prefixPath lb => if q = prefixPath then .writeIf (a.chosen lb) else .keep

/-- The views a call makes are among those the aspect is about. -/
def admits (a : Aspect β) : RoutingCall → Prop
  | .addPrefix _ algo hosts _ => a.fits ⟨algo, hosts⟩
  | .changeLb _ lb => a.fitsLb lb
  | _ => True

def Keeps (a : Aspect β) (R : Routing) : Prop :=
  ∀ q v, R.routes.lookup q = some v → a.fits v

theorem keeps_empty (a : Aspect β) : a.Keeps .empty := by
  intro q v hv
  cases hv

theorem keeps_insert (h : a.Keeps R) {v : View} (hv : a.fits v) (prefixPath : String)
    (static : GoMap String Bool) :
    a.Keeps ⟨R.routes.insert prefixPath v, static⟩ := by
  intro q w hw
  dsimp only at hw
  rw [GoMap.lookup_insert_eq] at hw
  split at hw
  · cases hw
    exact hv
  · exact h q w hw

/-- A call that changes the view of its prefix. -/
theorem onRoute {prefixPath : String} {f : View → View} {w : Option β}
    (hf : ∀ v, a.fits v → a.fits (f v) ∧ a.read (f v) = w.getD (a.read v))
    (h : a.Keeps R) (hmem : prefixPath ∈ R.routes) (q : String) :
    a.Keeps (R.onRoute prefixPath f) ∧
      ((R.onRoute prefixPath f).routes.lookup q).map a.read =
        (if q = prefixPath then RegisterOp.writeIf w else .keep).run
          ((R.routes.lookup q).map a.read) := by
  obtain ⟨v, hv⟩ := Finmap.mem_iff.mp hmem
  obtain ⟨hfits, hread⟩ := hf v (h prefixPath v hv)
  rw [Routing.onRoute_of_lookup hv]
  refine ⟨keeps_insert h hfits prefixPath R.static, ?_⟩
  dsimp only
  rw [GoMap.lookup_insert_eq]
  split
  · next heq =>
      rw [heq, hv, Option.map_some, Option.map_some, hread, RegisterOp.run_writeIf]
  · rfl

/-- A call that fits writes what `op` says. -/
theorem route {call : RoutingCall} (h : a.Keeps R) (hadmits : a.admits call)
    (hfits : call.Fits R) (q : String) :
    a.Keeps (call.route R) ∧
      ((call.route R).routes.lookup q).map a.read =
        (a.op q call).run ((R.routes.lookup q).map a.read) := by
  cases call with
  | addPrefix prefixPath algo hosts isStatic =>
      rw [RoutingCall.route, op]
      by_cases hmem : prefixPath ∈ R.routes
      · rw [if_pos hmem]
        refine ⟨h, ?_⟩
        split
        · next heq =>
            subst heq
            obtain ⟨v, hv⟩ := Finmap.mem_iff.mp hmem
            rw [hv]
            rfl
        · rfl
      · rw [if_neg hmem]
        refine ⟨keeps_insert h hadmits prefixPath _, ?_⟩
        dsimp only
        rw [GoMap.lookup_insert_eq]
        split
        · next heq =>
            rw [heq, Finmap.lookup_eq_none.mpr hmem]
            rfl
        · rfl
  | removePrefix prefixPath =>
      rw [RoutingCall.route, op]
      refine ⟨fun q' v hv => h q' v (GoMap.lookup_erase_eq_some_iff.mp hv).2, ?_⟩
      dsimp only
      rw [GoMap.lookup_erase_eq]
      split <;> rfl
  | addHost prefixPath host =>
      exact onRoute (fun v hv => a.read_add host hv) h hfits q
  | removeHost prefixPath host =>
      exact onRoute (fun v hv => a.read_remove host hv) h hfits q
  | changeStatic prefixPath => exact ⟨h, rfl⟩
  | changeLb prefixPath lb =>
      exact onRoute (f := fun v => ⟨lb, v.hosts⟩) (fun v hv => a.read_choose hv hadmits) h hfits q

/-- What is written is written over something. -/
theorem op_write {call : RoutingCall} {q : String} {b : β} (h : a.op q call = .write b)
    (hfits : call.Fits R) : ∃ v, R.routes.lookup q = some v := by
  have hwrite : ∀ {prefixPath w}, (if q = prefixPath then RegisterOp.writeIf w else .keep) =
      RegisterOp.write b → prefixPath ∈ R.routes → ∃ v, R.routes.lookup q = some v := by
    intro prefixPath w hop hmem
    split at hop
    · next heq =>
        rw [heq]
        exact Finmap.mem_iff.mp hmem
    · cases hop
  cases call with
  | addPrefix prefixPath algo hosts isStatic =>
      rw [op] at h
      split at h <;> cases h
  | removePrefix prefixPath =>
      rw [op] at h
      split at h <;> cases h
  | addHost prefixPath host => exact hwrite h hfits
  | removeHost prefixPath host => exact hwrite h hfits
  | changeStatic prefixPath => cases h
  | changeLb prefixPath lb => exact hwrite h hfits

end Aspect
end Proxy
end VermouthGateway
