import VermouthGateway.Discovery.Zookeeper
import VermouthGateway.Utils.Addresses

/-!
# One reading of a service

`watchNode` goes over a reading twice: the first loop lists the address and the port
of every record, the hosts to keep; the second one sends the hosts to add, where a
name is replaced by the addresses it resolves to.

* `mem_children_iff`: the hosts to keep are the records that were read.
* `addHost_cases`: the hosts to add, by the kind of their address.
* `contained_iff`: when the hosts to add are among the hosts to keep.
-/

namespace VermouthGateway
namespace Discovery

open Go

/-! ## Printed addresses -/

/-- An address and a port are read back from what is printed. -/
theorem hostPort_inj {address address' : String} {port port' : Int} :
    hostPort address port = hostPort address' port' ↔ address = address' ∧ port = port' := by
  constructor
  · intro h
    have hreverse (address : String) (port : Int) : (hostPort address port).toList.reverse =
        (toString port).toList.reverse ++ ':' :: address.toList.reverse := by
      simp [hostPort]
    have hcolon (n : Int) : ':' ∉ (toString n).toList.reverse := by
      rw [List.mem_reverse]
      exact (decimal_toString n).notMem (by decide) (by decide) (by decide)
    -- the last colon separates them, since no number holds one
    have hchars := congrArg (fun text : String => text.toList.reverse) h
    rw [hreverse, hreverse] at hchars
    obtain ⟨hport, haddress⟩ := append_sep_inj (hcolon port) (hcolon port') hchars
    have hdec := decimal_toString port
    rw [List.reverse_injective hport] at hdec
    exact ⟨String.toList_inj.mp (List.reverse_injective haddress),
      hdec.unique (decimal_toString port')⟩
  · rintro ⟨rfl, rfl⟩
    rfl

/-! ## The two loops -/

section Reading

variable {order : RangeOrder String ZookeeperServiceInfo}
  {lookupHost : String → Option (List String)} {service : String} {nodes : List String}
  {infos : GoMap String ZookeeperServiceInfo} {info : ZookeeperServiceInfo} {e : Event}

/-- A name, that is a text in neither format of an address, and an address it
resolves to. -/
def Resolves (lookupHost : String → Option (List String)) (name addr : String) : Prop :=
  Utils.validIPAddress name = "Neither" ∧ ∃ addrs, lookupHost name = some addrs ∧ addr ∈ addrs

/-- A node is announced under its IPv4 address or under what its name resolves to. -/
theorem mem_nodeEvents_iff : e ∈ nodeEvents lookupHost service info ↔
    ∃ addr, (Utils.validIPAddress info.address = "IPv4" ∧ addr = info.address ∨
        Resolves lookupHost info.address addr) ∧
      e = { opt := .addHost, serviceName := service, host := hostPort addr info.port } := by
  rw [nodeEvents]
  by_cases h4 : Utils.validIPAddress info.address = "IPv4"
  · simp [h4, Resolves]
  · by_cases h6 : Utils.validIPAddress info.address = "IPv6"
    · simp [h6, Resolves]
    · have hname := Utils.validIPAddress_neither info.address h4 h6
      rw [if_neg h4, if_neg h6]
      cases hlookup : lookupHost info.address with
      | none => simp [hname, Resolves, hlookup]
      | some addrs => simp [hname, Resolves, hlookup, eq_comm]

/-- The record of a node, the zero value when it could not be read. -/
def infoOf (infos : GoMap String ZookeeperServiceInfo) (node : String) : ZookeeperServiceInfo :=
  infos.get node ⟨"", 0⟩

/-- The hosts to keep are printed from the records that were read. -/
theorem mem_children_iff {host : String}
    (hevent : e ∈ roundEvents order lookupHost service nodes infos) (hopt : e.opt = .removeHosts) :
    host ∈ e.children ↔
      ∃ node info, infos.lookup node = some info ∧ hostPort info.address info.port = host := by
  rcases List.mem_cons.mp hevent with rfl | hevent
  · rw [List.mem_map]
    constructor
    · rintro ⟨node, hnode, hhost⟩
      obtain ⟨info, hinfo⟩ := Finmap.mem_iff.mp ((order.mem_keys infos node).mp hnode)
      rw [GoMap.get_of_lookup hinfo] at hhost
      exact ⟨node, info, hinfo, hhost⟩
    · rintro ⟨node, info, hinfo, hhost⟩
      refine ⟨node, (order.mem_keys infos node).mpr (Finmap.mem_iff.mpr ⟨info, hinfo⟩), ?_⟩
      rw [GoMap.get_of_lookup hinfo]
      exact hhost
  · -- the second loop sends additions only
    obtain ⟨node, -, hevent⟩ := List.mem_flatMap.mp hevent
    obtain ⟨addr, -, rfl⟩ := mem_nodeEvents_iff.mp hevent
    cases hopt

/-- The hosts to add come from the nodes of the reading. -/
theorem addHost_cases (hevent : e ∈ roundEvents order lookupHost service nodes infos)
    (hopt : e.opt = .addHost) :
    ∃ node ∈ nodes, e ∈ nodeEvents lookupHost service (infoOf infos node) := by
  rcases List.mem_cons.mp hevent with rfl | hevent
  · cases hopt
  · exact List.mem_flatMap.mp hevent

/-- Each host of a reading that is to be added is one that is to be kept. -/
def Contained (events : List Event) : Prop :=
  ∀ e ∈ events, e.opt = .addHost → ∀ e' ∈ events, e'.opt = .removeHosts → e.host ∈ e'.children

/-- The addresses that a name of the reading resolves to are those of records on the
same port. -/
def ResolvesToRead (lookupHost : String → Option (List String)) (nodes : List String)
    (infos : GoMap String ZookeeperServiceInfo) : Prop :=
  ∀ node ∈ nodes, ∀ addr, Resolves lookupHost (infoOf infos node).address addr →
    ∃ other info, infos.lookup other = some info ∧
      info.address = addr ∧ info.port = (infoOf infos node).port

/-- A node with an IPv4 address has a record. -/
theorem lookup_of_ipv4 {node : String}
    (h : Utils.validIPAddress (infoOf infos node).address = "IPv4") :
    infos.lookup node = some (infoOf infos node) := by
  cases hinfo : infos.lookup node with
  | none =>
      rw [infoOf, GoMap.get, hinfo] at h
      exact absurd h (by decide)
  | some info => rw [infoOf, GoMap.get_of_lookup hinfo]

/-- The two loops agree on every IPv4 address, and on the names that resolve to
addresses of the reading. -/
theorem contained_iff : Contained (roundEvents order lookupHost service nodes infos) ↔
    ResolvesToRead lookupHost nodes infos := by
  constructor
  · intro h node hnode addr hresolves
    have hadded : Event.mk .addHost service (hostPort addr (infoOf infos node).port) [] ∈
        roundEvents order lookupHost service nodes infos :=
      List.mem_cons_of_mem _ (List.mem_flatMap.mpr
        ⟨node, hnode, mem_nodeEvents_iff.mpr ⟨addr, Or.inr hresolves, rfl⟩⟩)
    obtain ⟨remove, hremove, hopt⟩ : ∃ remove ∈ roundEvents order lookupHost service nodes infos,
        remove.opt = .removeHosts := ⟨_, List.mem_cons_self, rfl⟩
    have hkept := h _ hadded rfl remove hremove hopt
    obtain ⟨other, info, hinfo, hhost⟩ := (mem_children_iff hremove hopt).mp hkept
    exact ⟨other, info, hinfo, hostPort_inj.mp hhost⟩
  · intro h e hevent hopt e' hevent' hopt'
    obtain ⟨node, hnode, hsent⟩ := addHost_cases hevent hopt
    obtain ⟨addr, haddr, rfl⟩ := mem_nodeEvents_iff.mp hsent
    rw [mem_children_iff hevent' hopt']
    rcases haddr with ⟨hipv4, rfl⟩ | hresolves
    · exact ⟨node, _, lookup_of_ipv4 hipv4, rfl⟩
    · obtain ⟨other, info, hinfo, rfl, hport⟩ := h node hnode addr hresolves
      exact ⟨other, info, hinfo, by rw [hport]⟩

end Reading

end Discovery
end VermouthGateway
