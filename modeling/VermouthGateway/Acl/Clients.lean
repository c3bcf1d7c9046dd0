import VermouthGateway.Acl.Cidrs

/-!
# The address of a client

`ServeHTTP` asks for a verdict on what `RemoteIp` returns, which is the remote
address of the connection.  `AccessControl` cuts it at the first colon and
`Search` drops the error of `InetToi`, whose number is then 0.

* `accessControl_unread`: a text that `InetToi` refuses has the verdict of
  `0.0.0.0`.
* `judged_iff`: when a client is judged by an address of its own.
-/

namespace VermouthGateway
namespace Acl

open Go
open RadixTree

/-! ## Texts that are no quad -/

theorem splitChars_cons_of_ne {sep c : Char} (hne : c ≠ sep) (cs : List Char) :
    ∃ piece pieces, splitChars sep (c :: cs) = (c :: piece) :: pieces := by
  rw [splitChars, if_neg hne]
  cases splitChars sep cs with
  | nil => exact ⟨[], [], rfl⟩
  | cons piece pieces => exact ⟨piece, pieces, rfl⟩

/-- A text that starts with a bracket is no address of `InetToi`. -/
theorem inetToi_bracket (cs : List Char) :
    Utils.inetToi (String.ofList ('[' :: cs)) = .ok none := by
  obtain ⟨group, groups, hsplit⟩ := splitChars_cons_of_ne (show '[' ≠ '.' by decide) cs
  have hatoi : atoi (String.ofList ('[' :: group)) = none := by
    cases hread : atoi (String.ofList ('[' :: group)) with
    | none => rfl
    | some n =>
        obtain ⟨hdec, -, -⟩ := atoi_eq_some_iff.mp hread
        rw [String.toList_ofList] at hdec
        exact absurd List.mem_cons_self
          (hdec.notMem (c := '[') (by decide) (by decide) (by decide))
  rw [Utils.inetToi, split, String.toList_ofList, hsplit, List.map_cons, Utils.inetToiLoop, hatoi]

/-- The error is dropped, and the number that comes with it is looked up. -/
theorem accessControl_unread {text : String}
    (h : Utils.inetToi ((split text ':').headD "") = .ok none) (t : RadixTree) :
    t.accessControl text =
      match t.search 0#32 with
      | none => .error .diverged
      | some value => .ok (value != noValue) := by
  rw [accessControl, searchText, h]
  show (match t.search 0#32 with
    | none => Except.error Halt.diverged
    | some value => Except.ok value) >>= _ = _
  cases t.search 0#32 <;> rfl

/-! ## Remote addresses -/

/-- What every IPv6 literal starts with, be it compressed or not, with an embedded
quad or a zone at its end: up to four hexadecimal digits and a colon. -/
def StartsIpv6 (v6 : List Char) : Prop :=
  ∃ head rest : List Char, v6 = head ++ ':' :: rest ∧ head.length ≤ 4 ∧
    ∀ c ∈ head, c ∈ "0123456789abcdefABCDEF".toList

/-- `[v6]:port`. -/
def Ipv6Remote (text : String) : Prop :=
  ∃ v6 port : List Char, text.toList = '[' :: (v6 ++ ']' :: ':' :: port) ∧ StartsIpv6 v6

/-- The address is a quad with or without a port. -/
def Ipv4Remote (text : String) : Prop := ∃ key, Writes text key

/-- A client is forbidden only for a network that was added and holds its own IPv4
address. -/
def Judged (t : RadixTree) (cs : List Cidr) (r : Utils.Request) : Prop :=
  ∃ verdict, t.accessControl (Utils.remoteIp r) = .ok verdict ∧
    (verdict = true → ∃ key, Writes r.remoteAddr key ∧ ∃ c ∈ cs, c.Holds key)

theorem Writes.ne_empty {text : String} {key : BitVec 32} (h : Writes text key) : text ≠ "" := by
  obtain ⟨a, b, c, d, rest, va, vb, vc, vd, htext, -⟩ := h
  rintro rfl
  have hlen := congrArg List.length htext
  simp [Utils.dotted] at hlen

/-- A quad starts with a digit, not with a bracket. -/
theorem Ipv6Remote.not_ipv4 {text : String} (h : Ipv6Remote text) : ¬ Ipv4Remote text := by
  rintro ⟨key, a, b, c, d, rest, va, vb, vc, vd, htext, -, ⟨ha, -⟩, -⟩
  obtain ⟨v6, port, hbracket, -⟩ := h
  rw [hbracket] at htext
  cases a with
  | nil => exact ha.nonempty rfl
  | cons digit a =>
      simp only [Utils.dotted, List.cons_append, List.cons.injEq] at htext
      exact ha.notMem (c := '[') (by decide) (htext.1 ▸ List.mem_cons_self)

theorem remoteIp_eq {r : Utils.Request} (h : r.remoteAddr ≠ "") :
    Utils.remoteIp r = r.remoteAddr := by
  rw [Utils.remoteIp, if_pos h]

section Judging

variable {t : RadixTree} {cs : List Cidr} {r : Utils.Request}

theorem judged_ipv4 (h : Grown t (storedTable cs)) (hipv4 : Ipv4Remote r.remoteAddr) :
    Judged t cs r := by
  obtain ⟨key, hkey⟩ := hipv4
  obtain ⟨verdict, hverdict, hheld⟩ := h.verdict hkey
  rw [Judged, remoteIp_eq hkey.ne_empty]
  exact ⟨verdict, hverdict, fun htrue => ⟨key, hkey, hheld.mp htrue⟩⟩

/-- An IPv6 client has the verdict of `0.0.0.0`. -/
theorem judged_ipv6_iff (h : Grown t (storedTable cs)) (hipv6 : Ipv6Remote r.remoteAddr) :
    Judged t cs r ↔ ∀ c ∈ cs, ¬ c.Holds 0#32 := by
  have hnot := hipv6.not_ipv4
  obtain ⟨v6, port, htext, -⟩ := hipv6
  have hne : r.remoteAddr ≠ "" := by
    intro hempty
    rw [hempty] at htext
    cases htext
  -- the piece before the first colon starts with the bracket
  obtain ⟨piece, pieces, hsplit⟩ :=
    splitChars_cons_of_ne (show '[' ≠ ':' by decide) (v6 ++ ']' :: ':' :: port)
  have hunread : Utils.inetToi ((split r.remoteAddr ':').headD "") = .ok none := by
    rw [split, htext, hsplit]
    exact inetToi_bracket piece
  obtain ⟨value, hsearch, hvalue⟩ := h.search_cases 0#32
  rw [Judged, remoteIp_eq hne, accessControl_unread hunread, hsearch]
  constructor
  · rintro ⟨verdict, hverdict, howned⟩ c hc hholds
    cases hverdict
    obtain ⟨key, hkey, -⟩ := howned (bne_iff_ne.mpr (hvalue.mpr ⟨c, hc, hholds⟩))
    exact hnot ⟨key, hkey⟩
  · intro hnone
    refine ⟨_, rfl, fun htrue => ?_⟩
    obtain ⟨c, hc, hholds⟩ := hvalue.mp (bne_iff_ne.mp htrue)
    exact absurd hholds (hnone c hc)

end Judging

/-- The tree of a list of networks judges a client by its own address when that is
an IPv4 address, or when no network of the list holds `0.0.0.0`. -/
theorem judged_iff (cs : List Cidr) (t : RadixTree)
    (hrun : EStateM.run (addAll (cs.map Cidr.text)) newRadixTree = .ok () t) (r : Utils.Request)
    (hform : Ipv4Remote r.remoteAddr ∨ Ipv6Remote r.remoteAddr) :
    Judged t cs r ↔ Ipv4Remote r.remoteAddr ∨ ∀ c ∈ cs, ¬ c.Holds 0#32 := by
  obtain ⟨t', hrun', hgrown⟩ := run_addAll_cidrs cs
  cases hrun.symm.trans hrun'
  rcases hform with hipv4 | hipv6
  · exact iff_of_true (judged_ipv4 hgrown hipv4) (Or.inl hipv4)
  · rw [judged_ipv6_iff hgrown hipv6, or_iff_right hipv6.not_ipv4]

/-- A request over the IPv6 loopback. -/
def loopback : Utils.Request := ⟨"/", "[::1]:5000", fun _ => ""⟩

theorem ipv6Remote_loopback : Ipv6Remote loopback.remoteAddr :=
  ⟨[':', ':', '1'], ['5', '0', '0', '0'], rfl, [], [':', '1'], rfl, by decide, by simp⟩

theorem judged_iff_loopback : ∃ t,
    EStateM.run (addAll ([sixtyFour.toCidr].map Cidr.text)) newRadixTree = .ok () t ∧
      (Judged t [sixtyFour.toCidr] loopback ↔
        Ipv4Remote loopback.remoteAddr ∨ ∀ c ∈ [sixtyFour.toCidr], ¬ c.Holds 0#32) := by
  obtain ⟨t, hrun, -⟩ := run_addAll_cidrs [sixtyFour.toCidr]
  exact ⟨t, hrun, judged_iff _ t hrun loopback (Or.inr ipv6Remote_loopback)⟩

/-- With `0.0.0.0/2` listed the loopback is forbidden. -/
theorem loopback_forbidden : ¬ ∀ (cs : List Cidr) (t : RadixTree),
    EStateM.run (addAll (cs.map Cidr.text)) newRadixTree = .ok () t → ∀ r : Utils.Request,
      Ipv4Remote r.remoteAddr ∨ Ipv6Remote r.remoteAddr → Judged t cs r := by
  intro h
  obtain ⟨t, hrun, hgrown⟩ := run_addAll_cidrs [zero.toCidr]
  have hjudged := h _ t hrun loopback (Or.inr ipv6Remote_loopback)
  exact (judged_ipv6_iff hgrown ipv6Remote_loopback).mp hjudged zero.toCidr
    (List.mem_singleton_self _) (by decide +kernel)

end Acl
end VermouthGateway
