import VermouthGateway.Acl.Operations

/-!
# Histories of a black list

A history is a sequence of `Add(s, s)` and `Delete(s)` calls on a fresh tree.
Its meaning is `liveTable`: the value stored last for every network that was
added and not deleted since.

* `Entry` is a well-formed text `a.b.c.d/n` with the network it denotes.
* `history_lookup`: after a history whose insertions are clean, every lookup
  ends and selects the longest live entry.
* `history_recycled_link`: an insertion that is not clean gives a wrong verdict.
-/

namespace VermouthGateway
namespace Acl

open Go LongestMatch
open RadixTree

/-- The text writes the dotted quad of an address, a slash and a length. -/
def Spells (text : String) (address : BitVec 32) (cidr : Nat) : Prop :=
  ∃ a b c d n : List Char, ∃ va vb vc vd : Nat,
    text.toList = Utils.dotted a b c d ++ '/' :: n ∧
    (Numeral a va ∧ va ≤ 255) ∧ (Numeral b vb ∧ vb ≤ 255) ∧
    (Numeral c vc ∧ vc ≤ 255) ∧ (Numeral d vd ∧ vd ≤ 255) ∧ Numeral n cidr ∧
    address = BitVec.ofNat 32 (va * 2 ^ 24 + vb * 2 ^ 16 + vc * 2 ^ 8 + vd)

/-- The two pieces of a well-formed text. -/
theorem pieces_dotted {text : String} {a b c d n : List Char} {va vb vc vd vn : Nat}
    (htext : text.toList = Utils.dotted a b c d ++ '/' :: n) (ha : Numeral a va)
    (hb : Numeral b vb) (hc : Numeral c vc) (hd : Numeral d vd) (hn : Numeral n vn) :
    pieces text = [String.ofList (Utils.dotted a b c d), String.ofList n] := by
  have hslash : '/' ∉ Utils.dotted a b c d := by
    simp only [Utils.dotted, List.mem_append, List.mem_cons, not_or]
    exact ⟨ha.notMem (by decide), by decide, hb.notMem (by decide), by decide,
      hc.notMem (by decide), by decide, hd.notMem (by decide)⟩
  rw [pieces, split, htext, splitChars_append hslash,
    splitChars_of_notMem (hn.notMem (by decide))]
  rfl

namespace Spells

variable {text : String} {address : BitVec 32} {cidr : Nat}

theorem text_ne (h : Spells text address cidr) : text ≠ noValue := by
  obtain ⟨a, b, c, d, n, va, vb, vc, vd, htext, -⟩ := h
  intro heq
  rw [heq] at htext
  have hlen := congrArg List.length htext
  simp [noValue] at hlen

/-- What `Add` and `Delete` read of a well-formed text. -/
theorem parses (h : Spells text address cidr) (hle : cidr ≤ 32) :
    ∃ host mask, pieces text = [host, mask] ∧
      Utils.inetToi host = .ok (some address) ∧ atoi mask = some (cidr : Int) := by
  obtain ⟨a, b, c, d, n, va, vb, vc, vd, htext, ⟨ha, hva⟩, ⟨hb, hvb⟩, ⟨hc, hvc⟩, ⟨hd, hvd⟩,
    hn, haddr⟩ := h
  refine ⟨String.ofList (Utils.dotted a b c d), String.ofList n,
    pieces_dotted htext ha hb hc hd hn, ?_, ?_⟩
  · rw [Utils.inetToi_dotted ha hb hc hd hva hvb hvc hvd, haddr]
  · have hcidr : cidr < 2 ^ 63 := lt_of_le_of_lt hle (by decide)
    exact hn.atoi_eq hcidr

end Spells

/-- A well-formed entry `a.b.c.d/n` with octets up to 255 and `1 ≤ n ≤ 32`. -/
structure Entry where
  text : String
  address : BitVec 32
  cidr : Nat
  spells : Spells text address cidr
  pos : 1 ≤ cidr
  le : cidr ≤ 32

/-- The network of an entry, as a word. -/
def Entry.word (e : Entry) : List Bool := networkBits e.address e.cidr

theorem Entry.text_ne (e : Entry) : e.text ≠ noValue := e.spells.text_ne

theorem Entry.parses (e : Entry) :
    ∃ host mask, pieces e.text = [host, mask] ∧
      Utils.inetToi host = .ok (some e.address) ∧ atoi mask = some (e.cidr : Int) :=
  e.spells.parses e.le

theorem run_add_entry (e : Entry) (value : String) (t : RadixTree) :
    EStateM.run (add e.text value) t =
      match EStateM.run (insert e.address (netMask e.cidr) value) t with
      | .ok _ t' => .ok none { t' with record := t'.record.insert e.text true }
      | .error halt t' => .error halt t' := by
  obtain ⟨host, mask, hpieces, hhost, hmask⟩ := e.parses
  have hrange : ¬ ((e.cidr : Int) < 0 ∨ (e.cidr : Int) > 32) := by
    have hle := e.le
    omega
  rw [add, hpieces]
  simp only [List.headD_cons, hhost, EStateM.run_bind, run_ofPure_ok,
    List.getElem?_cons_succ, List.getElem?_cons_zero, hmask, if_neg hrange, Int.toNat_natCast]
  cases EStateM.run (insert e.address (netMask e.cidr) value) t <;> rfl

theorem run_deleteText_entry (e : Entry) (t : RadixTree) :
    EStateM.run (deleteText e.text) t =
      match EStateM.run (delete e.address (netMask e.cidr)) t with
      | .ok true t' => .ok none { t' with record := t'.record.erase e.text }
      | .ok false t' => .ok (some .cantFindIpNet) t'
      | .error halt t' => .error halt t' := by
  obtain ⟨host, mask, hpieces, hhost, hmask⟩ := e.parses
  have hrange : ¬ ((e.cidr : Int) < 0 ∨ (e.cidr : Int) > 32) := by
    have hle := e.le
    omega
  rw [deleteText, hpieces]
  simp only [List.headD_cons, hhost, EStateM.run_bind, run_ofPure_ok,
    List.getElem?_cons_succ, List.getElem?_cons_zero, hmask, if_neg hrange, Int.toNat_natCast]
  cases EStateM.run (delete e.address (netMask e.cidr)) t with
  | ok ret t' => cases ret <;> rfl
  | error halt t' => rfl

/-! ## Histories -/

inductive AclOp
  | add (e : Entry)
  | delete (e : Entry)

/-- The call itself; its error value is not part of the history. -/
def AclOp.run : AclOp → Eff RadixTree Unit
  | .add e => do
      let _ ← RadixTree.add e.text e.text
      pure ()
  | .delete e => do
      let _ ← deleteText e.text
      pure ()

def runHistory (ops : List AclOp) : Eff RadixTree Unit := ops.forM AclOp.run

/-- The table after one more call. -/
def AclOp.apply (table : Table Bool String) : AclOp → Table Bool String
  | .add e => Function.update table e.word (some e.text)
  | .delete e => Function.update table e.word none

/-- The entries added and not deleted since, with the value stored last. -/
def liveTable (ops : List AclOp) : Table Bool String :=
  ops.foldl AclOp.apply fun _ => none

/-- An insertion is clean in the tree it runs on; a deletion always is. -/
def AclOp.Clean (t : RadixTree) : AclOp → Prop
  | .add e => CleanAdd t e.address e.cidr
  | .delete _ => True

instance (t : RadixTree) : DecidablePred (AclOp.Clean t)
  | .add _ => inferInstanceAs (Decidable (CleanAdd _ _ _))
  | .delete _ => isTrue trivial

/-- Every insertion of the history is clean when it runs. -/
def CleanHistory : RadixTree → List AclOp → Prop
  | _, [] => True
  | t, op :: ops => op.Clean t ∧ CleanHistory (memory (EStateM.run op.run t)) ops

/-- One call of a clean history keeps tree and table together. -/
theorem AclOp.run_represents {t : RadixTree} {table : Table Bool String}
    (h : Represents t table) (op : AclOp) (hclean : op.Clean t) :
    ∃ t', EStateM.run op.run t = .ok () t' ∧ Represents t' (op.apply table) := by
  cases op with
  | add e =>
      obtain ⟨t', hrun, hrep, -⟩ := h.run_insert e.address e.le e.text_ne hclean
      refine ⟨{ t' with record := t'.record.insert e.text true }, ?_, hrep.setRecord _⟩
      rw [AclOp.run, EStateM.run_bind, run_add_entry, hrun]
      rfl
  | delete e =>
      obtain ⟨t', hrun, hrep, -⟩ := h.run_delete e.address e.pos e.le
      rw [AclOp.run, EStateM.run_bind, run_deleteText_entry, hrun]
      cases (table (networkBits e.address e.cidr)).isSome with
      | true => exact ⟨{ t' with record := t'.record.erase e.text }, rfl, hrep.setRecord _⟩
      | false => exact ⟨t', rfl, hrep⟩

theorem runHistory_represents {t : RadixTree} {table : Table Bool String}
    (h : Represents t table) (ops : List AclOp) (hclean : CleanHistory t ops) :
    ∃ t', EStateM.run (runHistory ops) t = .ok () t' ∧
      Represents t' (ops.foldl AclOp.apply table) := by
  induction ops generalizing t table with
  | nil => exact ⟨t, rfl, h⟩
  | cons op ops ih =>
      obtain ⟨hop, hrest⟩ := hclean
      obtain ⟨t₁, hrun, hrep⟩ := op.run_represents h hop
      rw [hrun] at hrest
      obtain ⟨t', hrun', hrep'⟩ := ih hrep hrest
      refine ⟨t', ?_, hrep'⟩
      have hsplit : runHistory (op :: ops) = op.run >>= fun _ => runHistory ops := rfl
      rw [hsplit, EStateM.run_bind, hrun]
      exact hrun'

/-- `value` is what a lookup of `key` should give: the value at the longest
live word that is a prefix of the key, or no value when there is none. -/
def Selects (table : Table Bool String) (key : List Bool) (value : String) : Prop :=
  (∃ word, word <+: key ∧ table word = some value ∧
    ∀ other, other <+: key → (table other).isSome → other.length ≤ word.length) ∨
  (value = noValue ∧ ∀ word, word <+: key → table word = none)

theorem selects_matchFrom (table : Table Bool String) (key : List Bool) :
    Selects table key (matchFrom table noValue key) := by
  rw [matchFrom]
  cases hmatch : longestMatch table key with
  | none => exact Or.inr ⟨rfl, (longestMatch_eq_none_iff table key).mp hmatch⟩
  | some value => exact Or.inl ((longestMatch_eq_some_iff table key value).mp hmatch)

/-- The live entries carry their texts, which are not empty. -/
theorem liveTable_ne_noValue (ops : List AclOp) {word : List Bool} {value : String}
    (h : liveTable ops word = some value) : value ≠ noValue := by
  induction ops using List.reverseRecOn with
  | nil => cases h
  | append_singleton ops op ih =>
      rw [liveTable, List.foldl_append, List.foldl_cons, List.foldl_nil] at h
      cases op with
      | add e =>
          by_cases hword : word = e.word
          · subst hword
            rw [AclOp.apply, Function.update_self] at h
            cases h
            exact e.text_ne
          · rw [AclOp.apply, Function.update_of_ne hword] at h
            exact ih h
      | delete e =>
          by_cases hword : word = e.word
          · subst hword
            rw [AclOp.apply, Function.update_self] at h
            cases h
          · rw [AclOp.apply, Function.update_of_ne hword] at h
            exact ih h

/-- Some live entry contains the key. -/
def Covered (table : Table Bool String) (key : List Bool) : Prop :=
  ∃ word, word <+: key ∧ (table word).isSome

theorem Selects.ne_noValue_iff {ops : List AclOp} {key : List Bool} {value : String}
    (h : Selects (liveTable ops) key value) :
    value ≠ noValue ↔ Covered (liveTable ops) key := by
  rcases h with ⟨word, hword, hentry, -⟩ | ⟨rfl, hnone⟩
  · exact ⟨fun _ => ⟨word, hword, by simp [hentry]⟩, fun _ => liveTable_ne_noValue ops hentry⟩
  · refine ⟨fun hne => absurd rfl hne, ?_⟩
    rintro ⟨word, hword, hsome⟩
    rw [hnone word hword] at hsome
    cases hsome

/-- The calls of the history return; afterwards every lookup ends and selects
the longest live entry, and an address has a value exactly when a live entry
covers it. -/
def LooksUpLongest (ops : List AclOp) : Prop :=
  ∃ t, EStateM.run (runHistory ops) newRadixTree = .ok () t ∧
    ∀ key, ∃ value, t.search key = some value ∧
      Selects (liveTable ops) (addressBits key) value ∧
      (value ≠ noValue ↔ Covered (liveTable ops) (addressBits key))

/-- After a history whose insertions are clean, lookup is longest-prefix match. -/
theorem history_lookup (ops : List AclOp) (hclean : CleanHistory newRadixTree ops) :
    LooksUpLongest ops := by
  obtain ⟨t, hrun, hrep⟩ := runHistory_represents represents_newRadixTree ops hclean
  refine ⟨t, hrun, fun key => ?_⟩
  have hselects := selects_matchFrom (liveTable ops) (addressBits key)
  exact ⟨_, hrep.search_eq key, hselects, hselects.ne_noValue_iff⟩

/-! ## A stale link -/

/-- `64.0.0.0/2`. -/
def sixtyFour : Entry where
  text := "64.0.0.0/2"
  address := 0x40000000#32
  cidr := 2
  spells := ⟨['6', '4'], ['0'], ['0'], ['0'], ['2'], 64, 0, 0, 0, by decide, by decide,
    by decide, by decide, by decide, by decide, by decide⟩
  pos := by decide
  le := by decide

/-- `0.0.0.0/2`. -/
def zero : Entry where
  text := "0.0.0.0/2"
  address := 0#32
  cidr := 2
  spells := ⟨['0'], ['0'], ['0'], ['0'], ['2'], 0, 0, 0, 0, by decide, by decide,
    by decide, by decide, by decide, by decide, by decide⟩
  pos := by decide
  le := by decide

/-- A clean history may recycle nodes: the second insertion of `64.0.0.0/2`
takes both pruned nodes and overwrites the link between them. -/
theorem history_lookup_recycled :
    CleanHistory newRadixTree [.add sixtyFour, .delete sixtyFour, .add sixtyFour] ∧
      LooksUpLongest [.add sixtyFour, .delete sixtyFour, .add sixtyFour] := by
  have hclean : CleanHistory newRadixTree
      [.add sixtyFour, .delete sixtyFour, .add sixtyFour] := by
    simp only [CleanHistory, AclOp.run, EStateM.run_bind, run_add_entry, run_deleteText_entry]
    refine ⟨by decide, trivial, by decide +kernel, trivial⟩
  exact ⟨hclean, history_lookup _ hclean⟩

/-- The history whose last insertion leaves the link between the two pruned
nodes in place. -/
def recycling : List AclOp := [.add sixtyFour, .delete sixtyFour, .add zero]

/-- The lookup of a key after a history. -/
def lookupAfter (ops : List AclOp) (key : BitVec 32) : Option String :=
  match EStateM.run (runHistory ops) newRadixTree with
  | .ok _ t => t.search key
  | .error _ _ => none

theorem lookupAfter_recycling :
    lookupAfter recycling 0x40000000#32 = some "0.0.0.0/2" := by
  have hrun : runHistory recycling = AclOp.run (.add sixtyFour) >>= fun _ =>
      AclOp.run (.delete sixtyFour) >>= fun _ => AclOp.run (.add zero) >>= fun _ => pure () := rfl
  rw [lookupAfter, hrun]
  simp only [EStateM.run_bind, AclOp.run, run_add_entry, run_deleteText_entry]
  decide +kernel

/-- `64.0.0.0` is refused although no live entry covers it. -/
theorem history_recycled_link : ¬ ∀ ops : List AclOp, LooksUpLongest ops := by
  intro hall
  obtain ⟨t, hrun, hlookup⟩ := hall recycling
  obtain ⟨value, hsearch, -, hcovered⟩ := hlookup 0x40000000#32
  have hvalue : value = "0.0.0.0/2" := by
    have hwrong := lookupAfter_recycling
    rw [lookupAfter, hrun] at hwrong
    exact Option.some.inj (hsearch.symm.trans hwrong)
  obtain ⟨word, hword, hsome⟩ := hcovered.mp (by rw [hvalue]; decide)
  have hentry : word = zero.word := by
    by_contra hne
    have hnone : liveTable recycling word = none := by
      simp only [liveTable, recycling, List.foldl_cons, List.foldl_nil, AclOp.apply,
        Function.update_of_ne hne]
      by_cases hold : word = sixtyFour.word
      · rw [hold, Function.update_self]
      · rw [Function.update_of_ne hold, Function.update_of_ne hold]
    rw [hnone] at hsome
    cases hsome
  rw [hentry] at hword
  exact absurd hword (by decide)

end Acl
end VermouthGateway
