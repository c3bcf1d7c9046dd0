import VermouthGateway.Proxy.Aspects
import VermouthGateway.Cluster.Routing

/-!
# Watching the routing

A `Watch` is a part of what a node routes that the entries of the log act on as
on a register.

* `portWatch`: whether a port has a proxy.
* `aspectWatch`: an aspect of a prefix on a port.
* `Routed.fits_of_apply`: an entry that could be applied finds what it refers
  to, so that these laws apply to it.
-/

namespace VermouthGateway
namespace Cluster

open Go Proxy Balancing Registers

/-! ## Entries -/

/-- An entry that closes a proxy. -/
def LogEntry.Closes (entry : LogEntry) : Prop :=
  entry.call = none ∧ ∀ body, entry ≠ .addHttpProxy body

/-- The routing has what the entry refers to, and the entry closes nothing. -/
def LogEntry.Fits (G : GatewayRouting) (entry : LogEntry) : Prop :=
  (∃ port call R, entry.call = some (port, call) ∧ G.lookup port = some R ∧ call.Fits R) ∨
    ∃ body, entry = .addHttpProxy body

/-- An entry that could be applied fits. -/
theorem Routed.fits_of_apply {ctx ctx' : StateContext} {G : GatewayRouting} {entry : LogEntry}
    (h : Routed ctx G) (hopen : ¬ entry.Closes)
    (hrun : EStateM.run (StateContext.apply entry) ctx = .ok () ctx') : entry.Fits G := by
  cases hcall : entry.call with
  | some target =>
      obtain ⟨port, call⟩ := target
      rw [StateContext.apply_of_call hcall] at hrun
      obtain ⟨proxy, proxy', hproxy, hbody, rfl⟩ := StateContext.run_onProxy_ok hrun
      obtain ⟨R, hR, hrep⟩ := h.lookup hproxy
      exact Or.inl ⟨port, call, R, hcall, hR, call.fits_of_run hrep hbody⟩
  | none =>
      by_contra hfits
      exact hopen ⟨hcall, fun body heq => hfits (Or.inr ⟨body, heq⟩)⟩

/-- The proxy that a call is for is there. -/
theorem LogEntry.Fits.lookup {G : GatewayRouting} {entry : LogEntry} {port : Int}
    {call : ProxyCall} (h : entry.Fits G) (hcall : entry.call = some (port, call)) :
    ∃ R, G.lookup port = some R ∧ call.Fits R := by
  rcases h with ⟨p, call', R, hcall', hR, hfits⟩ | ⟨body, rfl⟩
  · cases hcall.symm.trans hcall'
    exact ⟨R, hR, hfits⟩
  · cases hcall

/-- How a prefix is balanced on a port. -/
def GatewayRouting.view (G : GatewayRouting) (port : Int) (q : String) : Option View :=
  (G.lookup port).bind fun R => R.routes.lookup q

/-! ## Watches -/

/-- A part of the routing that entries act on as on a register, for the entries
and the routings it is about. -/
structure Watch (β : Type) where
  port : Int
  value : GatewayRouting → Option β
  op : LogEntry → RegisterOp β
  keeps : GatewayRouting → Prop
  admits : LogEntry → Prop
  route : ∀ {G entry}, keeps G → admits entry → entry.Fits G →
    keeps (entry.route G) ∧ value (entry.route G) = (op entry).run (value G)
  writes : ∀ {G entry b}, op entry = .write b → entry.Fits G → value G ≠ none
  clears : ∀ {G entry}, op entry = .clear → entry.Fits G → G.lookup port ≠ none
  -- the port alone matters, and its proxy
  local_value : ∀ {G G' : GatewayRouting}, G.lookup port = G'.lookup port → value G = value G'
  absent : ∀ {G : GatewayRouting}, G.lookup port = none → value G = none
  union : ∀ {G G' : GatewayRouting}, keeps G → keeps G' → keeps (G ∪ G')

/-- What an entry does to a port with or without a proxy. -/
def portOp (port : Int) : LogEntry → RegisterOp Unit
  | .addHttpProxy body => if port = body.port then .init () else .keep
  | _ => .keep

theorem portOp_ne (op : RegisterOp Unit) (hinit : op ≠ .init ()) (hkeep : op ≠ .keep)
    (port : Int) (entry : LogEntry) : portOp port entry ≠ op := by
  cases entry with
  | addHttpProxy body =>
      rw [portOp]
      split
      · exact hinit.symm
      · exact hkeep.symm
  | _ => exact hkeep.symm

theorem portOp_ne_clear (port : Int) (entry : LogEntry) : portOp port entry ≠ .clear :=
  portOp_ne .clear nofun nofun port entry

theorem portOp_of_call {entry : LogEntry} {target : Int × ProxyCall}
    (hcall : entry.call = some target) (port : Int) : portOp port entry = .keep := by
  cases entry with
  | addHttpProxy body => cases hcall
  | _ => rfl

/-- Whether a port has a proxy. -/
def GatewayRouting.hasPort (G : GatewayRouting) (port : Int) : Option Unit :=
  (G.lookup port).map fun _ => ()

theorem hasPort_insert (G : GatewayRouting) (p port : Int) (R : Routing) :
    GatewayRouting.hasPort (G.insert p R) port =
      if port = p then some () else GatewayRouting.hasPort G port := by
  rw [GatewayRouting.hasPort, GoMap.lookup_insert_eq]
  split <;> rfl

theorem hasPort_of_lookup {G : GatewayRouting} {port : Int} {R : Routing}
    (hR : G.lookup port = some R) : GatewayRouting.hasPort G port = some () := by
  rw [GatewayRouting.hasPort, hR]
  rfl

theorem hasPort_eq_none {G : GatewayRouting} {port : Int} :
    G.hasPort port = none ↔ G.lookup port = none :=
  Option.map_eq_none_iff

/-- An entry that fits does to a port what `portOp` says. -/
theorem port_route {G : GatewayRouting} {entry : LogEntry} (hfits : entry.Fits G) (port : Int) :
    GatewayRouting.hasPort (entry.route G) port =
      (portOp port entry).run (GatewayRouting.hasPort G port) := by
  rcases hfits with ⟨p, call, R, hcall, hR, -⟩ | ⟨body, rfl⟩
  · rw [LogEntry.route_of_call hcall hR, portOp_of_call hcall, hasPort_insert]
    split
    · next heq =>
        rw [heq]
        exact (hasPort_of_lookup hR).symm
    · rfl
  · show GatewayRouting.hasPort (G.offer body.port .empty) port = _
    rw [portOp, GatewayRouting.offer]
    split
    · next hmem =>
        split
        · next heq =>
            obtain ⟨R, hR⟩ := Finmap.mem_iff.mp hmem
            rw [heq, hasPort_of_lookup hR]
            rfl
        · rfl
    · next hnew =>
        rw [hasPort_insert]
        split
        · next heq =>
            rw [heq, hasPort_eq_none.mpr (Finmap.lookup_eq_none.mpr hnew)]
            rfl
        · rfl

/-- A port with a proxy keeps it. -/
def portWatch (port : Int) : Watch Unit where
  port := port
  value G := G.hasPort port
  op := portOp port
  keeps _ := True
  admits _ := True
  route _ _ hfits := ⟨trivial, port_route hfits port⟩
  writes {G entry b} hop _ := absurd hop (portOp_ne (.write b) nofun nofun port entry)
  clears {G entry} hop _ := absurd hop (portOp_ne_clear port entry)
  local_value hsame := by rw [GatewayRouting.hasPort, GatewayRouting.hasPort, hsame]
  absent habsent := hasPort_eq_none.mpr habsent
  union _ _ := trivial

section Aspects

variable {β : Type} {a : Aspect β} {G : GatewayRouting} {entry : LogEntry}

theorem view_insert (G : GatewayRouting) (p port : Int) (R : Routing) (q : String) :
    GatewayRouting.view (G.insert p R) port q =
      if port = p then R.routes.lookup q else GatewayRouting.view G port q := by
  rw [GatewayRouting.view, GoMap.lookup_insert_eq]
  split <;> rfl

/-- What an entry does to an aspect of a prefix on a port. -/
def aspectOp (a : Aspect β) (port : Int) (q : String) (entry : LogEntry) : RegisterOp β :=
  match entry.call with
  | some (p, .routing call) => if port = p then a.op q call else .keep
  | _ => .keep

theorem aspectOp_of_routing {p : Int} {call : RoutingCall}
    (hcall : entry.call = some (p, .routing call)) (port : Int) (q : String) :
    aspectOp a port q entry = if port = p then a.op q call else .keep := by
  rw [aspectOp, hcall]

theorem aspectOp_cases (a : Aspect β) (port : Int) (q : String) (entry : LogEntry) :
    aspectOp a port q entry = .keep ∨
      ∃ call, entry.call = some (port, .routing call) ∧ aspectOp a port q entry = a.op q call := by
  cases hcall : entry.call with
  | none => exact Or.inl (by rw [aspectOp, hcall])
  | some target =>
      obtain ⟨p, call⟩ := target
      cases call with
      | routing call =>
          rw [aspectOp_of_routing hcall]
          by_cases hp : port = p
          · subst hp
            exact Or.inr ⟨call, rfl, if_pos rfl⟩
          · exact Or.inl (if_neg hp)
      | _ => exact Or.inl (by rw [aspectOp, hcall])

def aspectAdmits (a : Aspect β) (entry : LogEntry) : Prop :=
  ∀ p call, entry.call = some (p, .routing call) → a.admits call

def aspectKeeps (a : Aspect β) (G : GatewayRouting) : Prop :=
  ∀ port R, G.lookup port = some R → a.Keeps R

theorem aspectKeeps_insert (h : aspectKeeps a G) {R : Routing} (hR : a.Keeps R) (p : Int) :
    aspectKeeps a (G.insert p R) := by
  intro port R' hR'
  rw [GoMap.lookup_insert_eq] at hR'
  split at hR'
  · cases hR'
    exact hR
  · exact h port R' hR'

theorem aspectKeeps_offer (h : aspectKeeps a G) {R : Routing} (hR : a.Keeps R) (p : Int) :
    aspectKeeps a (G.offer p R) := by
  rw [GatewayRouting.offer]
  split
  · exact h
  · exact aspectKeeps_insert h hR p

/-- A new proxy routes nothing. -/
theorem view_offer (G : GatewayRouting) (p port : Int) (q : String) :
    GatewayRouting.view (G.offer p .empty) port q = GatewayRouting.view G port q := by
  rw [GatewayRouting.offer]
  split
  · rfl
  · next hnew =>
      rw [view_insert]
      split
      · next heq =>
          rw [GatewayRouting.view, heq, Finmap.lookup_eq_none.mpr hnew]
          rfl
      · rfl

/-- An entry that fits does to an aspect what `aspectOp` says. -/
theorem aspect_route (h : aspectKeeps a G) (hadmits : aspectAdmits a entry)
    (hfits : entry.Fits G) (port : Int) (q : String) :
    aspectKeeps a (entry.route G) ∧
      (GatewayRouting.view (entry.route G) port q).map a.read =
        (aspectOp a port q entry).run ((G.view port q).map a.read) := by
  rcases hfits with ⟨p, call, R, hcall, hR, hfits⟩ | ⟨body, rfl⟩
  · rw [LogEntry.route_of_call hcall hR]
    cases call with
    | routing call =>
        obtain ⟨hkeeps, hread⟩ := Aspect.route (h p R hR) (hadmits p call hcall) hfits q
        refine ⟨aspectKeeps_insert h hkeeps p, ?_⟩
        rw [view_insert, aspectOp_of_routing hcall]
        split
        · next heq =>
            rw [GatewayRouting.view, heq, hR]
            exact hread
        · rfl
    | _ =>
        rw [show (_ : ProxyCall).route R = R from rfl, GoMap.insert_lookup_self hR, aspectOp, hcall]
        exact ⟨h, rfl⟩
  · refine ⟨aspectKeeps_offer h (Aspect.keeps_empty a) body.port, ?_⟩
    show (GatewayRouting.view (G.offer body.port .empty) port q).map a.read = _
    rw [view_offer]
    rfl

/-- An aspect of a prefix on a port. -/
def aspectWatch (a : Aspect β) (port : Int) (q : String) : Watch β where
  port := port
  value G := (G.view port q).map a.read
  op := aspectOp a port q
  keeps := aspectKeeps a
  admits := aspectAdmits a
  route h hadmits hfits := aspect_route h hadmits hfits port q
  writes {G entry b} hop hfits := by
    rcases aspectOp_cases a port q entry with hkeep | ⟨call, hcall, hcallOp⟩
    · cases hkeep.symm.trans hop
    · obtain ⟨R, hR, hfitsHere⟩ := hfits.lookup hcall
      obtain ⟨v, hv⟩ := Aspect.op_write (hcallOp.symm.trans hop) hfitsHere
      rw [GatewayRouting.view, hR, Option.bind_some, hv]
      exact Option.some_ne_none _
  clears {G entry} hop hfits := by
    rcases aspectOp_cases a port q entry with hkeep | ⟨call, hcall, -⟩
    · cases hkeep.symm.trans hop
    · obtain ⟨R, hR, -⟩ := hfits.lookup hcall
      rw [hR]
      exact Option.some_ne_none _
  local_value hsame := by rw [GatewayRouting.view, GatewayRouting.view, hsame]
  absent habsent := by
    rw [GatewayRouting.view, habsent]
    rfl
  union h h' := by
    intro p R hR
    rw [GoMap.lookup_union_eq] at hR
    rcases Option.or_eq_some_iff.mp hR with hleft | ⟨-, hright⟩
    · exact h p R hleft
    · exact h' p R hright

end Aspects

end Cluster
end VermouthGateway
