import VermouthGateway.Balancing.Balancer

/-!
# The prefix router

`HashPrefixer` maps path prefixes to balancers.  Its own lock is only held
around map accesses and around one `Balance` call, none of which waits for it,
so it is left out of the model.

A view of the router, `routes`, maps each prefix to the view of its balancer.
-/

namespace VermouthGateway
namespace Proxy

open Go Balancing

structure HashPrefixer where
  mapping : GoMap String Balancer

/-- `TypeHashPrefixer`. -/
def typeHashPrefixer : String := "hash-prefixer"

/-- `NewHashPrefixer`. -/
def newHashPrefixer : HashPrefixer := ⟨∅⟩

/-- `prefix.Build`; `none` is `PrefixerTypeNotSupportedError`. -/
def buildPrefixer (type : String) : Option HashPrefixer :=
  if type = typeHashPrefixer then some newHashPrefixer else none

/-- The error values of `MappingPath`. -/
inductive MappingError
  | pathNotFound
  | balance (e : BalanceError)
deriving DecidableEq, Repr

def MappingError.message : MappingError → String
  | .pathNotFound => "Path not found, please check prefix"
  | .balance e => e.message

namespace HashPrefixer

/-- `Add`: a failing `Build` is dropped. -/
def add (p : HashPrefixer) (prefixPath algo : String) (hosts : List String) : HashPrefixer :=
  match build algo hosts with
  | .error _ => p
  | .ok b => ⟨p.mapping.insert prefixPath b⟩

/-- `Remove`. -/
def remove (p : HashPrefixer) (prefixPath : String) : HashPrefixer :=
  ⟨p.mapping.erase prefixPath⟩

/-- `GetBalancer`. -/
def getBalancer (p : HashPrefixer) (prefixPath : String) : Option Balancer :=
  p.mapping.lookup prefixPath

/-- Call a method of the balancer of a prefix, which is nil when the prefix is
not routed. -/
def withBalancer {α : Type} (prefixPath : String) (body : Eff Balancer α) :
    Eff HashPrefixer α :=
  focus (fun p => p.getBalancer prefixPath)
    (fun b p => ⟨p.mapping.insert prefixPath b⟩) body

/-- The loop of `MappingPath`: the last registered prefix seen, and where it
ends. -/
def matchPrefix (p : HashPrefixer) : List String → String → Nat → String → Nat → String × Nat
  | [], _, _, found, offset => (found, offset)
  | v :: vs, nextPath, idx, found, offset =>
      let nextPath := nextPath ++ "/" ++ v
      let idx := idx + v.length + 1
      -- a later hit is a longer prefix and replaces the earlier one
      if nextPath ∈ p.mapping then matchPrefix p vs nextPath idx nextPath idx
      else matchPrefix p vs nextPath idx found offset

/-- The prefix `MappingPath` settles on, and the rest of the path. -/
def matched (p : HashPrefixer) (apiPath : String) : String × String :=
  let (found, offset) := p.matchPrefix (split apiPath '/').tail "" 0 "" 0
  (if found.length = 0 then "/" else found, String.ofList (apiPath.toList.drop offset))

/-- `MappingPath`: the prefix, the rest of the path and the real path. -/
def mappingPath (apiPath : String) (r : Utils.Request) :
    Eff HashPrefixer (Except MappingError (String × String × String)) := do
  let p ← get
  let (found, rest) := p.matched apiPath
  if found ∉ p.mapping then pure (.error .pathNotFound)
  else
    match ← withBalancer found (Balancer.balance "" (some r)) with
    | .error e => pure (.error (.balance e))
    | .ok host => pure (.ok (found, rest, host ++ rest))

/-- The router as the tables of the proxy see it. -/
def routes (p : HashPrefixer) : GoMap String View := p.mapping.mapValues Balancer.view

theorem lookup_routes (p : HashPrefixer) (prefixPath : String) :
    p.routes.lookup prefixPath = (p.getBalancer prefixPath).map Balancer.view :=
  GoMap.lookup_mapValues _ _ _

theorem mem_routes (p : HashPrefixer) (prefixPath : String) :
    prefixPath ∈ p.routes ↔ prefixPath ∈ p.mapping := by
  rw [← Finmap.lookup_isSome, ← Finmap.lookup_isSome, lookup_routes, Option.isSome_map]
  rfl

/-- Replacing a balancer by one with the same view keeps the routes. -/
theorem routes_insert (p : HashPrefixer) (prefixPath : String) (b : Balancer) :
    (HashPrefixer.mk (p.mapping.insert prefixPath b)).routes =
      p.routes.insert prefixPath b.view := by
  apply Finmap.ext_lookup
  intro q
  rw [lookup_routes, GoMap.lookup_insert_eq, lookup_routes, getBalancer, GoMap.lookup_insert_eq]
  split <;> rfl

theorem routes_remove (p : HashPrefixer) (prefixPath : String) :
    (p.remove prefixPath).routes = p.routes.erase prefixPath := by
  apply Finmap.ext_lookup
  intro q
  rw [lookup_routes, GoMap.lookup_erase_eq, lookup_routes, getBalancer, remove,
    GoMap.lookup_erase_eq]
  split <;> rfl

@[simp] theorem routes_newHashPrefixer : newHashPrefixer.routes = ∅ := by
  apply Finmap.ext_lookup
  intro q
  rw [lookup_routes]
  rfl

theorem run_withBalancer {α : Type} (prefixPath : String) (body : Eff Balancer α)
    (p : HashPrefixer) :
    EStateM.run (withBalancer prefixPath body) p =
      match p.getBalancer prefixPath with
      | none => .error (.panic .nilDereference) p
      | some b =>
          embed (fun b' => ⟨p.mapping.insert prefixPath b'⟩) (EStateM.run body b) := by
  cases hb : p.getBalancer prefixPath with
  | none => exact run_focus_none (s := p) hb
  | some b => rw [withBalancer, run_focus_some (s := p) hb]

/-- A call that leaves the view of the balancer alone keeps the routes. -/
theorem memory_withBalancer_routes {α : Type} (prefixPath : String) {body : Eff Balancer α}
    {p : HashPrefixer}
    (hbody : ∀ b, p.getBalancer prefixPath = some b →
      (memory (EStateM.run body b)).view = b.view) :
    (memory (EStateM.run (withBalancer prefixPath body) p)).routes = p.routes := by
  rw [run_withBalancer]
  cases hb : p.getBalancer prefixPath with
  | none => rfl
  | some b =>
      dsimp only
      rw [memory_embed, routes_insert, hbody b hb]
      apply GoMap.insert_lookup_self
      rw [lookup_routes, hb]
      rfl

/-- What `MappingPath` makes of the answer of the balancer. -/
def answer (found rest : String) :
    Except BalanceError String → Except MappingError (String × String × String)
  | .error e => .error (.balance e)
  | .ok host => .ok (found, rest, host ++ rest)

theorem run_mappingPath_unrouted {apiPath : String} {p : HashPrefixer}
    (hfound : (p.matched apiPath).1 ∉ p.mapping) (r : Utils.Request) :
    EStateM.run (mappingPath apiPath r) p = .ok (.error .pathNotFound) p := by
  rw [mappingPath, EStateM.run_bind, EStateM.run_get]
  dsimp only
  rw [run_ite, if_pos hfound]
  rfl

/-- Once its prefix is found, a path is mapped by the answer of its balancer. -/
theorem run_mappingPath_routed {apiPath : String} {p : HashPrefixer}
    (hfound : (p.matched apiPath).1 ∈ p.mapping) (r : Utils.Request) :
    EStateM.run (mappingPath apiPath r) p =
      EStateM.run (withBalancer (p.matched apiPath).1 do
        let host ← Balancer.balance "" (some r)
        pure (answer (p.matched apiPath).1 (p.matched apiPath).2 host)) p := by
  rw [mappingPath, EStateM.run_bind, EStateM.run_get]
  dsimp only
  rw [run_ite, if_neg (not_not.mpr hfound), EStateM.run_bind, run_withBalancer, run_withBalancer]
  cases p.getBalancer (p.matched apiPath).1 with
  | none => rfl
  | some b =>
      dsimp only
      rw [EStateM.run_bind]
      cases EStateM.run (Balancer.balance "" (some r)) b with
      | error e b' => rfl
      | ok host b' => cases host <;> rfl

/-- Routing a request, however that ends, keeps the routes. -/
theorem memory_mappingPath_routes (apiPath : String) (r : Utils.Request) (p : HashPrefixer) :
    (memory (EStateM.run (mappingPath apiPath r) p)).routes = p.routes := by
  by_cases hfound : (p.matched apiPath).1 ∈ p.mapping
  · rw [run_mappingPath_routed hfound]
    apply memory_withBalancer_routes
    intro b _
    rw [memory_run_bind_pure]
    exact Balancer.memory_balance_view "" (some r) b
  · rw [run_mappingPath_unrouted hfound]
    rfl

/-- On a registered prefix `MappingPath` returns what the balancer makes it
return. -/
theorem run_mappingPath_answer {apiPath : String} {r : Utils.Request} {p p' : HashPrefixer}
    {out : Except MappingError (String × String × String)}
    (hfound : (p.matched apiPath).1 ∈ p.mapping)
    (hrun : EStateM.run (mappingPath apiPath r) p = .ok out p') :
    ∃ b b' host, p.getBalancer (p.matched apiPath).1 = some b ∧
      EStateM.run (Balancer.balance "" (some r)) b = .ok host b' ∧
      out = answer (p.matched apiPath).1 (p.matched apiPath).2 host ∧
      p' = ⟨p.mapping.insert (p.matched apiPath).1 b'⟩ := by
  rw [run_mappingPath_routed hfound, run_withBalancer] at hrun
  cases hb : p.getBalancer (p.matched apiPath).1 with
  | none =>
      rw [hb] at hrun
      cases hrun
  | some b =>
      rw [hb] at hrun
      obtain ⟨b', hanswer, rfl⟩ := embed_eq_ok hrun
      obtain ⟨host, b₁, hbalance, hlast⟩ := run_bind_ok hanswer
      cases hlast
      exact ⟨b, b', host, rfl, hbalance, rfl, rfl⟩

/-- A path is mapped to a registered prefix, and its real path starts with a
host the balancer has answered. -/
theorem run_mappingPath_ok {apiPath : String} {r : Utils.Request} {p p' : HashPrefixer}
    {prefixPath rest realPath : String}
    (hrun : EStateM.run (mappingPath apiPath r) p = .ok (.ok (prefixPath, rest, realPath)) p') :
    p.matched apiPath = (prefixPath, rest) ∧
    ∃ b b' host, p.getBalancer prefixPath = some b ∧
      EStateM.run (Balancer.balance "" (some r)) b = .ok (.ok host) b' ∧
      realPath = host ++ rest ∧ p' = ⟨p.mapping.insert prefixPath b'⟩ := by
  by_cases hfound : (p.matched apiPath).1 ∈ p.mapping
  · obtain ⟨b, b', host, hb, hbalance, hout, rfl⟩ := run_mappingPath_answer hfound hrun
    generalize p.matched apiPath = settled at hb hout ⊢
    cases host with
    | error e => cases hout
    | ok host =>
        cases hout
        exact ⟨rfl, b, b', host, hb, hbalance, rfl, rfl⟩
  · rw [run_mappingPath_unrouted hfound] at hrun
    cases hrun

theorem mem_of_mappingPath {apiPath : String} {r : Utils.Request} {p p' : HashPrefixer}
    {prefixPath rest realPath : String}
    (hrun : EStateM.run (mappingPath apiPath r) p = .ok (.ok (prefixPath, rest, realPath)) p') :
    prefixPath ∈ p.mapping := by
  obtain ⟨-, b, -, -, hb, -⟩ := run_mappingPath_ok hrun
  exact Finmap.mem_iff.mpr ⟨b, hb⟩

end HashPrefixer
end Proxy
end VermouthGateway
