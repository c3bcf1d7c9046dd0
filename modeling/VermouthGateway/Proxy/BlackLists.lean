import VermouthGateway.Acl.Cidrs
import VermouthGateway.Acl.Coupled
import VermouthGateway.Foundation.Runs
import VermouthGateway.Proxy.Sound

/-!
# The black list of a proxy

`AddBlackList` and `RemoveBlackList` on lists of well-formed entries, in any
sequence on a new proxy.

* `enforced_is_recorded`: as long as every call is faithful, the black list
  that is reported is the one enforced, and every faithful call returns.
* `removed_by_other_spelling`: removing a network by another spelling opens it
  and leaves the old text in the record.
* `verdicts_any_order`: networks added in any order give the same verdicts, so a
  rebuilt tree does not depend on how its record is ranged over.
-/

namespace VermouthGateway
namespace Proxy

open Go Acl LongestMatch Runs
open HttpReverseProxy

/-- A call on the black list of a proxy. -/
inductive BlackListCall
  | add (es : List Entry)
  | remove (es : List Entry)

namespace BlackListCall

def run : BlackListCall → Eff HttpReverseProxy Unit
  | .add es => addBlackList (es.map Entry.text)
  | .remove es => removeBlackList (es.map Entry.text)

/-- The calls on the tree it makes. -/
def ops : BlackListCall → List AclOp
  | .add es => es.map .add
  | .remove es => es.map .delete

/-- Every call on the tree is faithful where it runs. -/
def Faithful (proxy : HttpReverseProxy) (call : BlackListCall) : Prop :=
  FaithfulAll proxy.acl call.ops

end BlackListCall

/-- A call that returned. -/
def Called (proxy : HttpReverseProxy) (call : BlackListCall) (proxy' : HttpReverseProxy) : Prop :=
  EStateM.run call.run proxy = .ok () proxy'

/-- A faithful call that returned. -/
def FaithfulCalled (proxy : HttpReverseProxy) (call : BlackListCall)
    (proxy' : HttpReverseProxy) : Prop :=
  call.Faithful proxy ∧ Called proxy call proxy'

/-- A loop over the texts of entries is a history of the tree. -/
theorem run_forEach_texts {call : String → Eff RadixTree (Option AclError)} {op : Entry → AclOp}
    (hop : ∀ e, (op e).run = call e.text >>= fun _ => pure ()) (es : List Entry)
    (t : RadixTree) :
    EStateM.run (forEach (es.map Entry.text) call) t =
      EStateM.run (runHistory (es.map op)) t := by
  induction es generalizing t with
  | nil => rfl
  | cons e es ih =>
      have hsplit : runHistory ((e :: es).map op) =
          (op e).run >>= fun _ => runHistory (es.map op) := rfl
      rw [List.map_cons, run_forEach_cons, hsplit, EStateM.run_bind, hop, EStateM.run_bind]
      cases EStateM.run (call e.text) t with
      | ok answer t₁ => exact ih t₁
      | error halt t₁ => rfl

/-- The lock is free and record and tree are in step. -/
structure InStep (proxy : HttpReverseProxy) : Prop where
  free : proxy.mu = .free
  coupled : ∃ table, Coupled proxy.acl table

theorem inStep_newHttpReverseProxy {args : HttpProxyArgs} {shutdown : Nat}
    {proxy : HttpReverseProxy} (h : newHttpReverseProxy args shutdown = .ok proxy) :
    InStep proxy := by
  rw [newHttpReverseProxy] at h
  split at h
  · cases h
  · cases h
    exact ⟨rfl, _, coupled_newRadixTree⟩

/-- A faithful call returns and keeps record and tree in step. -/
theorem BlackListCall.run_inStep {proxy : HttpReverseProxy} (call : BlackListCall)
    (h : InStep proxy) (hfaithful : call.Faithful proxy) :
    ∃ tree, EStateM.run call.run proxy = .ok () { proxy with acl := tree } ∧
      InStep { proxy with acl := tree } := by
  obtain ⟨hfree, table, hcoupled⟩ := h
  obtain ⟨tree, hhistory, hcoupled'⟩ := run_coupled hcoupled hfaithful
  have hin : InStep { proxy with acl := tree } := ⟨hfree, _, hcoupled'⟩
  refine ⟨tree, ?_, hin⟩
  cases call with
  | add es =>
      exact run_aclLoop hfree ((run_forEach_texts (fun _ => rfl) es proxy.acl).trans hhistory)
  | remove es =>
      exact run_aclLoop hfree ((run_forEach_texts (fun _ => rfl) es proxy.acl).trans hhistory)

/-- In every run of faithful calls on a new proxy the recorded networks are the
enforced ones, and the next faithful call returns. -/
theorem enforced_is_recorded {args : HttpProxyArgs} {shutdown : Nat}
    {start proxy : HttpReverseProxy} {calls : List BlackListCall}
    (hnew : newHttpReverseProxy args shutdown = .ok start)
    (hrun : Run FaithfulCalled start calls proxy) :
    Enforces proxy.acl ∧
      ∀ call : BlackListCall, call.Faithful proxy →
        Completes (EStateM.run call.run proxy) := by
  have hinStep : InStep proxy := by
    refine Run.invariant ?_ hrun (inStep_newHttpReverseProxy hnew)
    rintro proxy₁ call proxy₂ h ⟨hfaithful, hcalled⟩
    obtain ⟨tree, hcall, h'⟩ := call.run_inStep h hfaithful
    cases hcalled.symm.trans hcall
    exact h'
  obtain ⟨table, hcoupled⟩ := hinStep.coupled
  refine ⟨hcoupled.enforces, fun call hfaithful => ?_⟩
  obtain ⟨tree, hcall, -⟩ := call.run_inStep hinStep hfaithful
  rw [hcall]
  trivial

/-- `10.0.0.0/8`. -/
def ten : Entry where
  text := "10.0.0.0/8"
  address := 0x0a000000#32
  cidr := 8
  spells := ⟨['1', '0'], ['0'], ['0'], ['0'], ['8'], 10, 0, 0, 0, by decide, by decide,
    by decide, by decide, by decide, by decide, by decide⟩
  pos := by decide
  le := by decide

/-- `10.1.0.0/8`, the same network. -/
def tenOne : Entry where
  text := "10.1.0.0/8"
  address := 0x0a010000#32
  cidr := 8
  spells := ⟨['1', '0'], ['1'], ['0'], ['0'], ['8'], 10, 1, 0, 0, by decide, by decide,
    by decide, by decide, by decide, by decide, by decide⟩
  pos := by decide
  le := by decide

theorem tenOne_word : tenOne.word = ten.word := by decide +kernel

/-- `ServeHTTP` passes the address with its port. -/
theorem writes_ten : Writes "10.0.0.1:5000" 0x0a000001#32 :=
  ⟨['1', '0'], ['0'], ['0'], ['1'], [':', '5', '0', '0', '0'], 10, 0, 0, 1, by decide,
    by decide, by decide, by decide, by decide, by decide, by decide⟩

/-- On a new tree every insertion is clean: there is nothing to recycle. -/
theorem faithful_ten : AclOp.Faithful newRadixTree (.add ten) := by
  intro root hroot
  cases hroot
  decide +kernel

/-- One network, listed on a new proxy. -/
theorem enforced_is_recorded_ten : ∃ start proxy,
    newHttpReverseProxy ⟨8080, typeHashPrefixer, []⟩ 0 = .ok start ∧
    Run FaithfulCalled start [.add [ten]] proxy ∧ Enforces proxy.acl ∧
    ∀ call : BlackListCall, call.Faithful proxy → Completes (EStateM.run call.run proxy) := by
  obtain ⟨start, hnew⟩ : ∃ start,
      newHttpReverseProxy ⟨8080, typeHashPrefixer, []⟩ 0 = .ok start := ⟨_, rfl⟩
  have hfaithful : (BlackListCall.add [ten]).Faithful start := by
    cases hnew
    exact ⟨faithful_ten, trivial⟩
  obtain ⟨tree, hcall, -⟩ :=
    (BlackListCall.add [ten]).run_inStep (inStep_newHttpReverseProxy hnew) hfaithful
  have hrun : Run FaithfulCalled start [.add [ten]] { start with acl := tree } :=
    .single ⟨hfaithful, hcall⟩
  exact ⟨start, _, hnew, hrun, enforced_is_recorded hnew hrun⟩

/-- A network listed under one text and deleted under another: the tree is empty
again and the record is not. -/
theorem run_delete_other_spelling : ∃ tree,
    EStateM.run (runHistory [.add ten]) newRadixTree = .ok () tree ∧
    ∃ tree', EStateM.run (runHistory [.delete tenOne]) tree = .ok () tree' ∧
      Represents tree' (fun _ => none) ∧ ten.text ∈ tree'.record := by
  obtain ⟨t₁, hinsert, hrep₁, hrecord₁⟩ := represents_newRadixTree.run_insert ten.address
    ten.le ten.text_ne faithful_ten
  have hrep : Represents { t₁ with record := t₁.record.insert ten.text true } _ :=
    hrep₁.setRecord _
  obtain ⟨t₂, hdelete, hrep₂, hrecord₂⟩ := hrep.run_delete tenOne.address tenOne.pos tenOne.le
  have hword : networkBits tenOne.address tenOne.cidr = networkBits ten.address ten.cidr :=
    tenOne_word
  rw [hword, Function.update_self] at hdelete
  rw [hword, Function.update_idem, Function.update_eq_self_iff.mpr rfl] at hrep₂
  refine ⟨{ t₁ with record := t₁.record.insert ten.text true }, ?_,
    { t₂ with record := t₂.record.erase tenOne.text }, ?_, hrep₂.setRecord _, ?_⟩
  · show EStateM.run (AclOp.run (.add ten) >>= fun _ => pure ()) _ = _
    rw [EStateM.run_bind, AclOp.run, EStateM.run_bind, run_add_entry, hinsert]
    rfl
  · show EStateM.run (AclOp.run (.delete tenOne) >>= fun _ => pure ()) _ = _
    rw [EStateM.run_bind, AclOp.run, EStateM.run_bind, run_deleteText_entry, hdelete]
    rfl
  · rw [hrecord₂]
    exact Finmap.mem_erase.mpr ⟨by decide, Finmap.mem_insert.mpr (Or.inl rfl)⟩

/-- `10.0.0.0/8` is listed, `10.1.0.0/8` is removed: `10.0.0.1` is let in while
its network is still recorded. -/
theorem removed_by_other_spelling : ¬ ∀ (args : HttpProxyArgs) (shutdown : Nat)
    (start proxy : HttpReverseProxy) (calls : List BlackListCall),
    newHttpReverseProxy args shutdown = .ok start → Run Called start calls proxy →
    Enforces proxy.acl := by
  intro hclaim
  obtain ⟨start, hnew⟩ : ∃ start,
      newHttpReverseProxy ⟨8080, typeHashPrefixer, []⟩ 0 = .ok start := ⟨_, rfl⟩
  obtain ⟨tree, hadd, tree', hdelete, hrep, hrecorded⟩ := run_delete_other_spelling
  have hacl : start.acl = newRadixTree := by
    cases hnew
    rfl
  have hfree := (inStep_newHttpReverseProxy hnew).free
  rw [← hacl] at hadd
  have hrun : Run Called start [.add [ten], .remove [tenOne]] { start with acl := tree' } := by
    have hfree₁ : HttpReverseProxy.mu { start with acl := tree } = .free := hfree
    have hadd₁ : Called start (.add [ten]) { start with acl := tree } :=
      run_aclLoop hfree ((run_forEach_texts (fun _ => rfl) [ten] start.acl).trans hadd)
    exact .cons hadd₁ (.single (run_aclLoop hfree₁
      ((run_forEach_texts (fun _ => rfl) [tenOne] tree).trans hdelete)))
  obtain ⟨verdict, hverdict, hiff⟩ :=
    hclaim _ 0 start { start with acl := tree' } _ hnew hrun _ _ writes_ten
  -- the tree is empty again, while the record still has the text that was added
  have hlookup : matchFrom (fun _ => none) noValue (addressBits 0x0a000001#32) = noValue := by
    rcases selects_matchFrom (fun _ => none) (addressBits 0x0a000001#32) with
      ⟨word, -, hsome, -⟩ | ⟨hnone, -⟩
    · cases hsome
    · exact hnone
  rw [accessControl_writes writes_ten, hrep.search_eq, hlookup] at hverdict
  cases hverdict
  have hblocked : (noValue != noValue) = true := hiff.mpr
    ⟨ten.text, hrecorded, (ten.contains_iff _).mpr (by decide +kernel)⟩
  cases hblocked

/-! ## The order of the insertions -/

/-- Two trees give one verdict on every address, and forbid the addresses that
are held. -/
def Agree (t t' : RadixTree) (held : BitVec 32 → Prop) : Prop :=
  ∀ text key, Writes text key → ∃ verdict, t.accessControl text = .ok verdict ∧
    t'.accessControl text = .ok verdict ∧ (verdict = true ↔ held key)

theorem agree_of_grown {t t' : RadixTree} {cs cs' : List Cidr} (h : Grown t (storedTable cs))
    (h' : Grown t' (storedTable cs')) {held : BitVec 32 → Prop}
    (hheld : ∀ key, (∃ c ∈ cs, c.Holds key) ↔ held key)
    (hheld' : ∀ key, (∃ c ∈ cs', c.Holds key) ↔ held key) : Agree t t' held := by
  intro text key htext
  obtain ⟨verdict, hverdict, hiff⟩ := h.verdict htext
  obtain ⟨verdict', hverdict', hiff'⟩ := h'.verdict htext
  have hsame : verdict = verdict' := by
    rw [Bool.eq_iff_iff, hiff, hiff', hheld, hheld']
  subst hsame
  exact ⟨verdict, hverdict, hverdict', hiff.trans (hheld key)⟩

/-- The keys of a record of well-formed texts are the texts of a list. -/
theorem exists_cidrs {keys : List String} (h : ∀ text ∈ keys, ∃ c : Cidr, c.text = text) :
    ∃ cs : List Cidr, cs.map Cidr.text = keys := by
  induction keys with
  | nil => exact ⟨[], rfl⟩
  | cons key keys ih =>
      obtain ⟨c, hc⟩ := h key List.mem_cons_self
      obtain ⟨cs, hcs⟩ := ih fun text htext => h text (List.mem_cons_of_mem key htext)
      exact ⟨c :: cs, by rw [List.map_cons, hc, hcs]⟩

/-- A tree rebuilt from a record in any order holds the recorded networks. -/
theorem rebuildAcl_grown {record : GoMap String Bool}
    (h : ∀ text ∈ record, ∃ c : Cidr, c.text = text) (order : RangeOrder String Bool) :
    ∃ t cs, rebuildAcl (order.keys record) = .ok t ∧ Grown t (storedTable cs) ∧
      ∀ key, (∃ c ∈ cs, c.Holds key) ↔ ∃ c : Cidr, c.text ∈ record ∧ c.Holds key := by
  obtain ⟨cs, hcs⟩ := exists_cidrs fun text htext => h text ((order.mem_keys record text).mp htext)
  obtain ⟨t, hrun, hgrown⟩ := run_addAll_cidrs cs
  rw [hcs] at hrun
  refine ⟨t, cs, rebuildAcl_of_run hrun, hgrown, fun key => ?_⟩
  have hmem : ∀ c : Cidr, c ∈ cs ↔ c.text ∈ record := by
    intro c
    rw [← order.mem_keys, ← hcs, List.mem_map]
    constructor
    · exact fun hc => ⟨c, hc, rfl⟩
    · rintro ⟨c', hc', htext⟩
      exact Cidr.eq_of_text htext ▸ hc'
  simp only [hmem]

/-- The verdicts do not depend on the order in which networks are added, be it a
list or the record that `Restore` ranges over. -/
theorem verdicts_any_order :
    (∀ cs cs₁ cs₂ : List Cidr, cs₁.Perm cs → cs₂.Perm cs →
      ∃ t₁ t₂, EStateM.run (addAll (cs₁.map Cidr.text)) newRadixTree = .ok () t₁ ∧
        EStateM.run (addAll (cs₂.map Cidr.text)) newRadixTree = .ok () t₂ ∧
        Agree t₁ t₂ fun key => ∃ c ∈ cs, c.Holds key) ∧
    ∀ record : GoMap String Bool, (∀ text ∈ record, ∃ c : Cidr, c.text = text) →
      ∀ order₁ order₂ : RangeOrder String Bool,
        ∃ t₁ t₂, rebuildAcl (order₁.keys record) = .ok t₁ ∧
          rebuildAcl (order₂.keys record) = .ok t₂ ∧
          Agree t₁ t₂ fun key => ∃ c : Cidr, c.text ∈ record ∧ c.Holds key := by
  constructor
  · intro cs cs₁ cs₂ hperm₁ hperm₂
    obtain ⟨t₁, hrun₁, hgrown₁⟩ := run_addAll_cidrs cs₁
    obtain ⟨t₂, hrun₂, hgrown₂⟩ := run_addAll_cidrs cs₂
    exact ⟨t₁, t₂, hrun₁, hrun₂, agree_of_grown hgrown₁ hgrown₂
      (fun _ => by simp only [hperm₁.mem_iff]) fun _ => by simp only [hperm₂.mem_iff]⟩
  · intro record hrecord order₁ order₂
    obtain ⟨t₁, cs₁, hrebuilt₁, hgrown₁, hheld₁⟩ := rebuildAcl_grown hrecord order₁
    obtain ⟨t₂, cs₂, hrebuilt₂, hgrown₂, hheld₂⟩ := rebuildAcl_grown hrecord order₂
    exact ⟨t₁, t₂, hrebuilt₁, hrebuilt₂, agree_of_grown hgrown₁ hgrown₂ hheld₁ hheld₂⟩

/-- `0.0.0.0/0`, every address. -/
def everything : Cidr where
  text := "0.0.0.0/0"
  address := 0#32
  length := 0
  spells := ⟨['0'], ['0'], ['0'], ['0'], ['0'], 0, 0, 0, 0, by decide, by decide,
    by decide, by decide, by decide, by decide, by decide⟩
  le := by decide

/-- Two nested networks in both orders, as a list and as a record. -/
theorem verdicts_any_order_nested :
    (∃ t₁ t₂,
      EStateM.run (addAll ([ten.toCidr, everything].map Cidr.text)) newRadixTree = .ok () t₁ ∧
      EStateM.run (addAll ([everything, ten.toCidr].map Cidr.text)) newRadixTree = .ok () t₂ ∧
      Agree t₁ t₂ fun key => ∃ c ∈ [ten.toCidr, everything], c.Holds key) ∧
    ∃ t₁ t₂, rebuildAcl ((RangeOrder.sorted String Bool).keys
        (Finmap.singleton "10.0.0.0/8" true)) = .ok t₁ ∧
      rebuildAcl ((RangeOrder.sorted String Bool).keys
        (Finmap.singleton "10.0.0.0/8" true)) = .ok t₂ ∧
      Agree t₁ t₂ fun key =>
        ∃ c : Cidr, c.text ∈ (Finmap.singleton "10.0.0.0/8" true : GoMap String Bool) ∧
          c.Holds key := by
  refine ⟨verdicts_any_order.1 [ten.toCidr, everything] [ten.toCidr, everything]
    [everything, ten.toCidr] (.refl _) (.swap _ _ _), verdicts_any_order.2 _ ?_ _ _⟩
  intro text htext
  rw [Finmap.mem_singleton] at htext
  exact ⟨ten.toCidr, htext.symm⟩

end Proxy
end VermouthGateway
