import VermouthGateway.Proxy.HttpReverseProxy
import VermouthGateway.Proxy.Routing

/-!
# The forwarder cuts where the router glued

`MappingPath` writes the host of a balancer before the rest of the path, and
`forwardToSpecficPath` cuts this text at its first slash and the part before it
at its first colon.  The cuts fall on the seams because a host has no slash, and
the rest of a path is empty or starts with one.

* `forwardToSpecficPath_address`: an address and such a rest are found again.
* `matched_rest`: the rest is of that form for every table and path.
* `forwards_to_address_iff`: a routed request goes to the address its balancer
  answered, with the rest of the path for its path, unless the client falls on a key
  of a ring that has lost its host.
-/

namespace VermouthGateway
namespace Proxy

open Go Balancing
open HashPrefixer

/-- A host name: not empty, and without the characters that end it. -/
structure HostName (h : String) : Prop where
  nonempty : h ≠ ""
  slash : '/' ∉ h.toList
  colon : ':' ∉ h.toList

/-- The text of a registered host names a host and a port, 80 when none is
written. -/
inductive Address : String → String → Int → Prop
  | bare {h : String} (hname : HostName h) : Address h h 80
  | withPort {h port : String} {n : Int} (hname : HostName h) (hport : Decimal port.toList n)
      (hlow : -2 ^ 63 ≤ n) (hhigh : n < 2 ^ 63) : Address (h ++ ":" ++ port) h n

/-- The part of `http.Request.URL` that the director of the reverse proxy
writes. -/
structure Url where
  scheme : String
  host : String
  path : String
deriving DecidableEq

/-- The director of `forwardToSpecficPath`, as far as it names the target. -/
def director (host : String) (port : Int) (apiUrl : String) : Url :=
  { scheme := "http", host := host ++ ":" ++ toString port, path := apiUrl }

/-- The url of the request sent, if one is. -/
def Response.target : Response → Option Url
  | .forwarded host port path => some (director host port path)
  | _ => none

/-- A routed request is sent by http to the host and the port of the address that its
balancer answered, with the rest of its path for its path. -/
def SentToAddress (p : HashPrefixer) (r : Utils.Request) (prefixPath apiPath realPath : String) :
    Prop :=
  ∃ b b' x h port, p.getBalancer prefixPath = some b ∧
    EStateM.run (Balancer.balance "" (some r)) b = .ok (.ok x) b' ∧ realPath = x ++ apiPath ∧
    Address x h port ∧
    forwardToSpecficPath realPath = .forwarded h port apiPath ∧
    (forwardToSpecficPath realPath).target = some ⟨"http", h ++ ":" ++ toString port, apiPath⟩

section Address

variable {x h : String} {n : Int}

theorem toList_withPort (h port : String) :
    (h ++ ":" ++ port).toList = h.toList ++ ':' :: port.toList := by
  have hcolon : ":".toList = [':'] := rfl
  rw [String.toList_append, String.toList_append, hcolon, List.append_assoc]
  rfl

theorem Address.ne_empty (haddress : Address x h n) : x ≠ "" := by
  rintro rfl
  generalize hx : "" = x at haddress
  cases haddress with
  | bare hname => exact hname.nonempty hx.symm
  | withPort hname hport hlow hhigh =>
      have hlength := congrArg String.length hx
      rw [String.length_append, String.length_append] at hlength
      have hcolon : ":".length = 1 := rfl
      have hnone : "".length = 0 := rfl
      omega

/-- An address has no slash, so the first slash behind it ends it. -/
theorem Address.slash (haddress : Address x h n) : '/' ∉ x.toList := by
  cases haddress with
  | bare hname => exact hname.slash
  | withPort hname hport hlow hhigh =>
      rw [toList_withPort, List.mem_append, List.mem_cons]
      rintro (hmem | hcolon | hmem)
      · exact hname.slash hmem
      · exact absurd hcolon (by decide)
      · exact hport.notMem (by decide) (by decide) (by decide) hmem

/-- Cutting at the first slash gives the address and the rest back. -/
theorem cut_at_slash {address rest : List Char} (hslash : '/' ∉ address)
    (hrest : rest = [] ∨ ∃ more, rest = '/' :: more) :
    (address ++ rest).takeWhile (· != '/') = address ∧
      (address ++ rest).dropWhile (· != '/') = rest := by
  have hall : ∀ c ∈ address, (c != '/') = true := by
    intro c hc
    rw [bne_iff_ne]
    rintro rfl
    exact hslash hc
  rw [List.takeWhile_append_of_pos hall, List.dropWhile_append_of_pos hall]
  rcases hrest with rfl | ⟨more, rfl⟩
  · exact ⟨List.append_nil _, rfl⟩
  · exact ⟨List.append_nil _, rfl⟩

/-- What is sent to an address with a rest is sent to its host and port. -/
theorem forwardToSpecficPath_address (haddress : Address x h n) {rest : String}
    (hrest : rest = "" ∨ ∃ more, rest = "/" ++ more) :
    forwardToSpecficPath (x ++ rest) = .forwarded h n rest := by
  have hchars : rest.toList = [] ∨ ∃ more, rest.toList = '/' :: more := by
    rcases hrest with rfl | ⟨more, rfl⟩
    · exact Or.inl rfl
    · exact Or.inr ⟨more.toList, by rw [String.toList_append]; rfl⟩
  obtain ⟨haddr, hurl⟩ := cut_at_slash haddress.slash hchars
  rw [forwardToSpecficPath, String.toList_append, haddr, hurl, String.ofList_toList,
    String.ofList_toList]
  cases haddress with
  | bare hname =>
      rw [split, splitChars_of_notMem hname.colon]
      show Response.forwarded (String.ofList _) 80 rest = _
      rw [String.ofList_toList]
  | @withPort h port n hname hport hlow hhigh =>
      -- the first colon ends the host, and the port has none
      have hcolon : ':' ∉ port.toList :=
        hport.notMem (by decide) (by decide) (by decide)
      rw [split, toList_withPort, splitChars_append hname.colon, splitChars_of_notMem hcolon]
      dsimp only [List.map]
      rw [hport.atoi_eq hlow hhigh, String.ofList_toList]

end Address

/-- The rest of a path is empty or starts with a slash. -/
theorem HashPrefixer.matched_rest (p : HashPrefixer) {path : String} {rest : List Char}
    (hpath : path.toList = '/' :: rest) :
    (p.matched path).2 = "" ∨ ∃ more, (p.matched path).2 = "/" ++ more := by
  rcases p.matched_cases hpath with ⟨hlongest, happend⟩ | ⟨hroot, -⟩
  · rcases hlongest.leads with hsame | ⟨more, hmore⟩
    · refine Or.inl ?_
      have hlength := congrArg String.length happend
      rw [String.length_append, ← hsame] at hlength
      exact String.length_eq_zero_iff.mp (by omega)
    · refine Or.inr ⟨more, ?_⟩
      rw [String.append_assoc] at hmore
      exact String.append_right_inj _ |>.mp (happend.trans hmore)
  · rw [hroot]
    have hslash : "/".toList = ['/'] := rfl
    refine Or.inr ⟨String.ofList rest, String.toList_inj.mp ?_⟩
    rw [hpath, String.toList_append, hslash, String.toList_ofList]
    rfl

/-- What is sent without an address goes to port 80 of no host. -/
theorem forwardToSpecficPath_nobody {rest : String}
    (hrest : rest = "" ∨ ∃ more, rest = "/" ++ more) :
    forwardToSpecficPath ("" ++ rest) = .forwarded "" 80 rest := by
  have hchars : rest.toList = [] ∨ ∃ more, rest.toList = '/' :: more := by
    rcases hrest with rfl | ⟨more, rfl⟩
    · exact Or.inl rfl
    · exact Or.inr ⟨more.toList, by rw [String.toList_append]; rfl⟩
  obtain ⟨haddr, hurl⟩ := cut_at_slash List.not_mem_nil hchars
  rw [List.nil_append] at haddr hurl
  rw [forwardToSpecficPath, String.empty_append, haddr, hurl, String.ofList_toList]
  rfl

/-- A routed request is sent to the address that was answered, or to nobody when the
key on which its client falls has lost its host. -/
theorem sent_or_lost {p p' : HashPrefixer} {r : Utils.Request}
    {path prefixPath apiPath realPath : String} (hslash : ∃ rest, path = "/" ++ rest)
    (haddresses : ∀ q b, p.getBalancer q = some b →
      ∀ x, b.HasHost x → ∃ h port, Address x h port)
    (hrun : EStateM.run (mappingPath path r) p = .ok (.ok (prefixPath, apiPath, realPath)) p') :
    ∃ b, p.getBalancer (p.matched path).1 = some b ∧
      (b.HostsClient r ∧ SentToAddress p r prefixPath apiPath realPath ∨
        ¬ b.HostsClient r ∧ ¬ b.Hosted ∧ ¬ SentToAddress p r prefixPath apiPath realPath ∧
          forwardToSpecficPath realPath = .forwarded "" 80 apiPath) := by
  obtain ⟨rest, hpath⟩ := exists_toList hslash
  obtain ⟨hmatched, b, b', x, hb, hbalance, rfl, -⟩ := run_mappingPath_ok hrun
  have hseam := p.matched_rest hpath
  rw [hmatched] at hseam ⊢
  refine ⟨b, hb, ?_⟩
  rcases Balancer.answer_cases hbalance with ⟨hclient, hhost⟩ | ⟨hclient, hhosted, rfl⟩
  · obtain ⟨h, port, haddress⟩ := haddresses prefixPath b hb x hhost
    have hforward := forwardToSpecficPath_address haddress hseam
    refine Or.inl ⟨hclient, b, b', x, h, port, hb, hbalance, rfl, haddress, hforward, ?_⟩
    rw [hforward]
    rfl
  · refine Or.inr ⟨hclient, hhosted, ?_, forwardToSpecficPath_nobody hseam⟩
    rintro ⟨b₁, b₂, x, h, port, hb₁, hbalance₁, -, haddress, -⟩
    cases hb.symm.trans hb₁
    cases hbalance.symm.trans hbalance₁
    exact haddress.ne_empty rfl

/-- When the hosts of the table are addresses, a routed request is sent to the address
that was answered exactly when its balancer has the host of the key on which the client
falls, as it has while no key of its ring has lost its host; otherwise it is sent to
nobody. -/
theorem forwards_to_address_iff {p p' : HashPrefixer} {r : Utils.Request}
    {path prefixPath apiPath realPath : String} (hslash : ∃ rest, path = "/" ++ rest)
    (haddresses : ∀ q b, p.getBalancer q = some b →
      ∀ x, b.HasHost x → ∃ h port, Address x h port)
    (hrun : EStateM.run (mappingPath path r) p = .ok (.ok (prefixPath, apiPath, realPath)) p') :
    (SentToAddress p r prefixPath apiPath realPath ↔
      ∀ b, p.getBalancer (p.matched path).1 = some b → b.HostsClient r) ∧
    ((∀ b, p.getBalancer (p.matched path).1 = some b → b.Hosted) →
      SentToAddress p r prefixPath apiPath realPath) ∧
    (¬ SentToAddress p r prefixPath apiPath realPath →
      forwardToSpecficPath realPath = .forwarded "" 80 apiPath) := by
  obtain ⟨b, hb, ⟨hclient, hsent⟩ | ⟨hclient, hhosted, hlost, hnobody⟩⟩ :=
    sent_or_lost hslash haddresses hrun
  · refine ⟨iff_of_true hsent fun b₁ hb₁ => ?_, fun _ => hsent, fun hnot => absurd hsent hnot⟩
    cases hb.symm.trans hb₁
    exact hclient
  · exact ⟨iff_of_false hlost fun hall => hclient (hall b hb),
      fun hall => absurd (hall b hb) hhosted, fun _ => hnobody⟩

/-- One of the two hosts has a port. -/
theorem forwards_to_address_iff_below : ∃ p' realPath,
    EStateM.run (mappingPath "/api/users" ⟨"/api/users", "", fun _ => ""⟩) apiRouter =
      .ok (.ok ("/api", "/users", realPath)) p' ∧
    SentToAddress apiRouter ⟨"/api/users", "", fun _ => ""⟩ "/api" "/users" realPath := by
  obtain ⟨p', hrun⟩ := run_mappingPath_apiRouter
  have hbare : Address "10.0.0.1" "10.0.0.1" 80 :=
    .bare ⟨by decide, by decide, by decide⟩
  have hport : Address ("10.0.0.2" ++ ":" ++ "8080") "10.0.0.2" 8080 :=
    .withPort ⟨by decide, by decide, by decide⟩ (.unsigned ⟨by decide, by decide, by decide⟩)
      (by decide) (by decide)
  have hrobins : ∀ q b, apiRouter.getBalancer q = some b →
      b = .roundRobin (newRoundRobin ["10.0.0.2:8080"]) ∨
        b = .roundRobin (newRoundRobin ["10.0.0.1"]) := by
    intro q b hb
    have hmapping : apiRouter.mapping = Finmap.insert "/api"
        (.roundRobin (newRoundRobin ["10.0.0.2:8080"])) (Finmap.insert "/api/"
          (.roundRobin (newRoundRobin ["10.0.0.1"])) ∅) := rfl
    rw [getBalancer, hmapping, GoMap.lookup_insert_eq, GoMap.lookup_insert_eq] at hb
    split at hb
    · cases hb
      exact Or.inl rfl
    · split at hb
      · cases hb
        exact Or.inr rfl
      · cases hb
  have haddresses : ∀ q b, apiRouter.getBalancer q = some b →
      ∀ x, b.HasHost x → ∃ h port, Address x h port := by
    intro q b hb x hx
    rcases hrobins q b hb with rfl | rfl
    · obtain rfl := List.mem_singleton.mp hx
      exact ⟨_, _, hport⟩
    · obtain rfl := List.mem_singleton.mp hx
      exact ⟨_, _, hbare⟩
  refine ⟨p', _, hrun,
    (forwards_to_address_iff ⟨"api/users", rfl⟩ haddresses hrun).1.mpr fun b hb => ?_⟩
  rcases hrobins _ b hb with rfl | rfl <;> exact trivial

/-- A ring of two hosts, one of which was added again. -/
@[irreducible] def doubledRing : ConsistenceHash :=
  memory (EStateM.run (ConsistenceHash.add "10.0.0.1:80")
    (newConsistenceHash ["10.0.0.1:80", "10.0.0.2:80"]))

/-- The ring after this host was removed. -/
@[irreducible] def strippedRing : ConsistenceHash :=
  memory (EStateM.run (ConsistenceHash.remove "10.0.0.1:80") doubledRing)

/-- A client that falls on a key of the removed host. -/
def lostClient : Utils.Request := ⟨"/api/users", "192.168.0.6:51000", fun _ => ""⟩

def strippedRouter : HashPrefixer := ⟨Finmap.insert "/api" (.consistenceHash strippedRing) ∅⟩

/-- A host is added twice and removed once.  Its keys were there twice, so one of each is
left, without a host. -/
theorem run_strippedRing :
    EStateM.run (ConsistenceHash.add "10.0.0.1:80")
      (newConsistenceHash ["10.0.0.1:80", "10.0.0.2:80"]) = .ok () doubledRing ∧
    EStateM.run (ConsistenceHash.remove "10.0.0.1:80") doubledRing = .ok () strippedRing := by
  have hadded : Completes (EStateM.run (ConsistenceHash.add "10.0.0.1:80")
      (newConsistenceHash ["10.0.0.1:80", "10.0.0.2:80"])) := by decide +kernel
  have hremoved : Completes (EStateM.run (ConsistenceHash.remove "10.0.0.1:80") doubledRing) := by
    decide +kernel
  obtain ⟨u, c, hc⟩ := completes_iff.mp hadded
  obtain ⟨u', c', hc'⟩ := completes_iff.mp hremoved
  exact ⟨by rw [doubledRing, hc, memory_ok], by rw [strippedRing, hc', memory_ok]⟩

theorem getBalancer_strippedRouter {q : String} {b : Balancer}
    (hb : strippedRouter.getBalancer q = some b) : b = .consistenceHash strippedRing := by
  rw [getBalancer, strippedRouter, GoMap.lookup_insert_eq] at hb
  split at hb
  · cases hb
    rfl
  · cases hb

/-- The host that is left is an address. -/
theorem address_strippedRouter {q : String} {b : Balancer}
    (hb : strippedRouter.getBalancer q = some b) {x : String} (hx : b.HasHost x) :
    ∃ h port, Address x h port := by
  obtain rfl := getBalancer_strippedRouter hb
  obtain ⟨key, hkey⟩ := hx
  have hall : ∀ key ∈ strippedRing.hosts.keys,
      strippedRing.hosts.lookup key = some "10.0.0.2:80" := by decide +kernel
  cases hkey.symm.trans (hall key (Finmap.mem_keys.mpr (Finmap.mem_of_lookup_eq_some hkey)))
  have hport : Address ("10.0.0.2" ++ ":" ++ "80") "10.0.0.2" 80 :=
    .withPort ⟨by decide, by decide, by decide⟩ (.unsigned ⟨by decide, by decide, by decide⟩)
      (by decide) (by decide)
  exact ⟨_, _, hport⟩

/-- The client is sent to port 80 of no host, although every host that the table was
given is an address. -/
theorem forwards_to_nobody : ∃ p' realPath,
    EStateM.run (ConsistenceHash.add "10.0.0.1:80")
      (newConsistenceHash ["10.0.0.1:80", "10.0.0.2:80"]) = .ok () doubledRing ∧
    EStateM.run (ConsistenceHash.remove "10.0.0.1:80") doubledRing = .ok () strippedRing ∧
    (∀ q b, strippedRouter.getBalancer q = some b →
      ∀ x, b.HasHost x → ∃ h port, Address x h port) ∧
    EStateM.run (mappingPath "/api/users" lostClient) strippedRouter =
      .ok (.ok ("/api", "/users", realPath)) p' ∧
    forwardToSpecficPath realPath = .forwarded "" 80 "/users" ∧
    ¬ SentToAddress strippedRouter lostClient "/api" "/users" realPath := by
  have hmatched : strippedRouter.matched "/api/users" = ("/api", "/users") := by decide +kernel
  have hb : strippedRouter.getBalancer (strippedRouter.matched "/api/users").1 =
      some (.consistenceHash strippedRing) := by
    rw [hmatched]
    exact Finmap.lookup_insert _
  obtain ⟨hkeys, hwriter⟩ : strippedRing.keys ≠ [] ∧ strippedRing.mu.writer = false := by
    decide +kernel
  have hkey : ConsistenceHash.balanceKey "" (some lostClient) = .ok "192.168.0.6." := rfl
  have hbalance := ConsistenceHash.run_balance hwriter "" (some lostClient)
  rw [if_neg hkeys, hkey] at hbalance
  have hdispatch := congrArg (embed Balancer.consistenceHash) hbalance
  rw [← Balancer.run_dispatch_consistenceHash] at hdispatch
  have hrun := run_mappingPath_host hb hdispatch
  rw [hmatched] at hrun
  obtain ⟨b, hb', ⟨hclient, -⟩ | ⟨-, -, hlost, hnobody⟩⟩ :=
    sent_or_lost ⟨"api/users", rfl⟩ (fun _ _ hb _ => address_strippedRouter hb) hrun
  · obtain rfl := getBalancer_strippedRouter hb'
    have hnone : strippedRing.keyFor "192.168.0.6." ∉ strippedRing.hosts := by decide +kernel
    exact absurd (hclient _ hkey) hnone
  · exact ⟨_, _, run_strippedRing.1, run_strippedRing.2,
      fun _ _ hb _ => address_strippedRouter hb, hrun, hnobody, hlost⟩

end Proxy
end VermouthGateway
