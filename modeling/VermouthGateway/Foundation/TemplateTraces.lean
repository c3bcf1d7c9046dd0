import VermouthGateway.Foundation.Templates

/-!
# Templates whose characters are told apart

Replacing placeholders one after another may make the text of the expansion by
accident, out of the wrong characters.  On a template and values whose characters
are all distinct there are no accidents: a replacement outside a hole takes away a
character that nothing brings back.

* `own_or_settled`: what is found in a spelled text is a hole, or has a character
  of a value or of the template itself in it.
* `undisturbed_of_replaceEach_eq`: on distinct characters, replacements that make
  the expansion were not disturbed.
* `label` makes the characters of any text distinct, and `traceReplace_eq_iff` is
  the result for them.
-/

namespace VermouthGateway
namespace Templates

open Go

section Characters

variable {ι α β : Type}

/-- A character that is there to stay: one of the template outside the holes, or one
of a value that was put in. -/
def Settled (done : List ι) (value : ι → List β) (pieces : List (Piece ι β)) (x : β) : Prop :=
  .lit x ∈ pieces ∨ ∃ i ∈ done, i ∈ holes pieces ∧ x ∈ value i

theorem Settled.of_append {done : List ι} {value : ι → List β}
    {left right : List (Piece ι β)} {x : β}
    (h : Settled done value right x) : Settled done value (left ++ right) x := by
  rcases h with hlit | ⟨i, hi, hhole, hx⟩
  · exact Or.inl (List.mem_append_right left hlit)
  · refine Or.inr ⟨i, hi, ?_, hx⟩
    rw [holes_append]
    exact List.mem_append_right _ hhole

/-- The piece of a spelled text that a character belongs to. -/
theorem exists_piece {γ : Type} {f : γ → List β} {pieces : List γ} {before after : List β} {x : β}
    (h : pieces.flatMap f = before ++ x :: after) :
    ∃ left piece right u v, pieces = left ++ piece :: right ∧ f piece = u ++ x :: v ∧
      before = left.flatMap f ++ u ∧ after = v ++ right.flatMap f := by
  induction pieces generalizing before with
  | nil => simp at h
  | cons piece pieces ih =>
      rw [List.flatMap_cons] at h
      rcases List.append_eq_append_iff.mp h with ⟨rest, hbefore, hrest⟩ | ⟨rest, hpiece, hrest⟩
      · obtain ⟨left, piece', right, u, v, rfl, hpiece, rfl, rfl⟩ := ih hrest
        exact ⟨piece :: left, piece', right, u, v, rfl, hpiece,
          by rw [hbefore, List.flatMap_cons, List.append_assoc], rfl⟩
      · cases rest with
        | nil =>
            rw [List.append_nil] at hpiece
            have hhead : pieces.flatMap f = [] ++ x :: after := hrest.symm
            obtain ⟨left, piece', right, u, v, rfl, hpiece', hnil, rfl⟩ := ih hhead
            refine ⟨piece :: left, piece', right, u, v, rfl, hpiece', ?_, rfl⟩
            rw [List.flatMap_cons, List.append_assoc, ← hnil, List.append_nil, hpiece]
        | cons y rest =>
            obtain ⟨rfl, rfl⟩ := List.cons.inj hrest
            exact ⟨[], piece, pieces, before, rest, rfl, hpiece, rfl, rfl⟩

/-- No character of the template or of a value occurs twice. -/
structure Distinct (value : ι → List β) (pieces : List (Piece ι β)) : Prop where
  text : (text pieces).Nodup
  values : ∀ i, (value i).Nodup
  apart : ∀ i, ∀ x ∈ value i, x ∉ Templates.text pieces
  disjoint : ∀ i j, i ≠ j → ∀ x ∈ value i, x ∉ value j

namespace Distinct

variable {value : ι → List β} {pieces : List (Piece ι β)}

theorem tail {piece : Piece ι β} (h : Distinct value (piece :: pieces)) :
    Distinct value pieces where
  text := (List.nodup_append.mp h.text).2.1
  values := h.values
  apart i x hx hmem := h.apart i x hx (List.mem_append_right _ hmem)
  disjoint := h.disjoint

/-- A settled character is in no value that is still to come. -/
theorem notMem_value (h : Distinct value pieces) {before : List ι} {x : β}
    (hset : Settled before value pieces x) {j : ι} (hj : j ∉ before) : x ∉ value j := by
  intro hx
  rcases hset with hlit | ⟨i, hi, -, hxi⟩
  · exact h.apart j x hx (List.mem_flatMap.mpr ⟨.lit x, hlit, List.mem_singleton_self x⟩)
  · exact h.disjoint i j (fun hij => hj (hij ▸ hi)) x hxi hx

end Distinct

end Characters

/-! ## Origins -/

/-- Where a character comes from. -/
inductive Origin (ι : Type)
  | template
  | value (i : ι)
deriving DecidableEq

/-- The characters of a text, each with its origin and its place there. -/
def label {ι α : Type} (origin : Origin ι) (cs : List α) : List (α × Origin ι × Nat) :=
  cs.zipIdx.map fun c => (c.1, origin, c.2)

section Labels

variable {ι α : Type}

theorem map_label (origin : Origin ι) (cs : List α) : (label origin cs).map Prod.fst = cs := by
  rw [label, List.map_map]
  exact List.zipIdx_map_fst 0 cs

theorem nodup_label (origin : Origin ι) (cs : List α) : (label origin cs).Nodup := by
  have hplaces : (label origin cs).map (fun c => c.2.2) = List.range' 0 cs.length := by
    rw [label, List.map_map]
    exact List.zipIdx_map_snd 0 cs
  refine List.Nodup.of_map (fun c => c.2.2) ?_
  rw [hplaces]
  exact List.nodup_range'

theorem origin_of_mem_label {origin : Origin ι} {cs : List α} {x : α × Origin ι × Nat}
    (hx : x ∈ label origin cs) : x.2.1 = origin := by
  obtain ⟨c, -, rfl⟩ := List.mem_map.mp hx
  rfl

end Labels

section LabelledTemplate

variable {ι α : Type} [DecidableEq α] (V : Vocabulary ι α) (order : List ι)

/-- Labelled characters are distinct. -/
theorem distinct_label (value : ι → List α) (cs : List α) :
    Distinct (fun i => label (.value i) (value i))
      (parse V order Prod.fst 0 (label .template cs)) where
  text := by
    rw [text_parse, List.drop_zero]
    exact nodup_label .template cs
  values i := nodup_label (.value i) (value i)
  apart i x hx hmem := by
    rw [text_parse, List.drop_zero] at hmem
    have horigin := (origin_of_mem_label hx).symm.trans (origin_of_mem_label hmem)
    cases horigin
  disjoint i j hij x hx hmem := by
    have horigin := (origin_of_mem_label hx).symm.trans (origin_of_mem_label hmem)
    exact hij (Origin.value.inj horigin)

end LabelledTemplate

section Members

variable {ι α β : Type} [DecidableEq α] {V : Vocabulary ι α} {proj : β → α} {value : ι → List β}
  {order : List ι}

theorem mem_replaceBy {old : List α} {new cs : List β} {x : β}
    (hx : x ∈ replaceBy proj old new cs) : x ∈ cs ∨ x ∈ new := by
  rw [replaceBy] at hx
  split at hx
  · exact Or.inl hx
  · rcases List.mem_append.mp hx with hx | hx
    · rcases List.mem_append.mp hx with hx | hx
      · exact Or.inl (List.mem_of_mem_take hx)
      · exact Or.inr hx
    · exact Or.inl (List.mem_of_mem_drop hx)

theorem mem_replaceEach {cs : List β} {x : β} (hx : x ∈ replaceEach V proj value order cs) :
    x ∈ cs ∨ ∃ i ∈ order, x ∈ value i := by
  induction order generalizing cs with
  | nil => exact Or.inl hx
  | cons i order ih =>
      rcases ih hx with hx | ⟨j, hj, hx⟩
      · rcases mem_replaceBy hx with hx | hx
        · exact Or.inl hx
        · exact Or.inr ⟨i, List.mem_cons_self, hx⟩
      · exact Or.inr ⟨j, List.mem_cons_of_mem i hj, hx⟩

end Members

/-! ## What a search can find -/

variable {ι α β : Type} [DecidableEq ι] {V : Vocabulary ι α} {proj : β → α} {value : ι → List β}
  {order : List ι} {pieces : List (Piece ι β)}

/-- A character of a spelled text is settled, or belongs to a hole that is not filled. -/
theorem settled_or_open {done : List ι} {before after : List β} {x : β}
    (h : spell done value pieces = before ++ x :: after) :
    Settled done value pieces x ∨ ∃ left j own right u v, pieces = left ++ .hole j own :: right ∧
      j ∉ done ∧ own = u ++ x :: v ∧ before = spell done value left ++ u ∧
      after = v ++ spell done value right := by
  obtain ⟨left, piece, right, u, v, rfl, hpiece, hbefore, hafter⟩ := exists_piece h
  cases piece with
  | lit y =>
      have hx : x ∈ [y] := by
        rw [show [y] = u ++ x :: v from hpiece]
        simp
      rw [List.mem_singleton.mp hx]
      exact Or.inl (Or.inl (by simp))
  | hole j own =>
      rw [Piece.spell] at hpiece
      by_cases hj : j ∈ done
      · rw [if_pos hj] at hpiece
        refine Or.inl (Or.inr ⟨j, hj, ?_, by rw [hpiece]; simp⟩)
        rw [holes_append, holes]
        simp
      · rw [if_neg hj] at hpiece
        exact Or.inr ⟨left, j, own, right, u, v, rfl, hj, hpiece, hbefore, hafter⟩

/-- A placeholder found in a spelled text is a hole of the template, or has a settled
character in it. -/
theorem own_or_settled {done : List ι} {before window after : List β} {i : ι}
    (hreads : Reads V proj pieces) (h : spell done value pieces = before ++ window ++ after)
    (hwindow : window.map proj = V.pattern i) :
    (∃ left own right, pieces = left ++ .hole i own :: right ∧
      before = spell done value left) ∨ ∃ x ∈ window, Settled done value pieces x := by
  -- the mark the window begins with, and the first letter of the name
  obtain ⟨c, cs, hname⟩ := List.exists_cons_of_ne_nil (V.name_ne_nil i)
  have hc : c ≠ V.mark := by
    rintro rfl
    exact V.mark_notMem i (by rw [hname]; exact List.mem_cons_self)
  obtain ⟨x, y, rest, rfl, hx, hy⟩ : ∃ x y rest, window = x :: y :: rest ∧
      proj x = V.mark ∧ proj y = c := by
    rw [Vocabulary.pattern, hname, List.cons_append] at hwindow
    obtain ⟨x, tail, rfl, hx, htail⟩ := List.map_eq_cons_iff.mp hwindow
    obtain ⟨y, rest, rfl, hy, -⟩ := List.map_eq_cons_iff.mp htail
    exact ⟨x, y, rest, rfl, hx, hy⟩
  have hcut : spell done value pieces = before ++ x :: (y :: rest ++ after) := by
    rw [h, List.append_assoc, List.cons_append]
  rcases settled_or_open hcut with hset | ⟨left, j, own, right, u, v, rfl, hj, rfl, hbefore, hafter⟩
  · exact Or.inr ⟨x, List.mem_cons_self, hset⟩
  have hown := hreads j _ (List.mem_append_right left List.mem_cons_self)
  cases u with
  | nil =>
      -- the window begins where the hole does
      have hi : V.pattern i <+: (x :: (y :: rest ++ after)).map proj :=
        ⟨after.map proj, by rw [← hwindow, ← List.map_append]; rfl⟩
      have hij : V.pattern j <+: (x :: (y :: rest ++ after)).map proj :=
        ⟨(spell done value right).map proj, by
          rw [hafter, ← hown, ← List.map_append]; rfl⟩
      obtain rfl := V.pattern_eq_of_prefix hi hij
      exact Or.inl ⟨left, _, right, rfl, by rw [hbefore, List.append_nil]⟩
  | cons w u =>
      -- a mark further on is the last character of the hole
      have hv : v = [] := by
        by_contra hne
        obtain ⟨init, z, rfl⟩ := List.eq_nil_or_concat v |>.resolve_left hne
        have hsplit : (w :: u ++ x :: init.concat z).map proj =
            proj w :: ((u ++ x :: init).map proj ++ [proj z]) := by simp
        rw [hsplit, Vocabulary.pattern] at hown
        have hmark := (List.append_inj' (List.cons.inj hown).2 rfl).1
        refine V.mark_notMem j ?_
        rw [← hmark, ← hx]
        simp
      rw [hv, List.nil_append] at hafter
      -- so the letter after it begins another piece
      have hhead : spell done value right = [] ++ y :: (rest ++ after) := hafter.symm
      rcases settled_or_open hhead with
        hset | ⟨left', k, own', right', u', v', rfl, -, rfl, hnil, -⟩
      · have hset' : Settled done value ([.hole j (w :: u ++ x :: v)] ++ right) y :=
          hset.of_append
        exact Or.inr ⟨y, by simp, hset'.of_append⟩
      · have hu : u' = [] := (List.append_eq_nil_iff.mp hnil.symm).2
        have hown' := hreads k (u' ++ y :: v') (by simp)
        rw [hu, List.nil_append, List.map_cons, Vocabulary.pattern] at hown'
        exact absurd (hy.symm.trans (List.cons.inj hown').1) hc

theorem mem_spell {done : List ι} {x : β} (hx : x ∈ spell done value pieces) :
    x ∈ text pieces ∨ ∃ i ∈ holes pieces, x ∈ value i := by
  induction pieces with
  | nil => cases hx
  | cons piece pieces ih =>
      rw [spell_cons, List.mem_append] at hx
      have htext : text (piece :: pieces) = piece.text ++ text pieces := rfl
      rw [htext, List.mem_append]
      rcases hx with hx | hx
      · cases piece with
        | lit y => exact Or.inl (Or.inl hx)
        | hole i own =>
            rw [Piece.spell] at hx
            split at hx
            · exact Or.inr ⟨i, List.mem_cons_self, hx⟩
            · exact Or.inl (Or.inl hx)
      · rcases ih hx with hmem | ⟨i, hi, hmem⟩
        · exact Or.inl (Or.inr hmem)
        · refine Or.inr ⟨i, ?_, hmem⟩
          cases piece with
          | lit y => exact hi
          | hole j own => exact List.mem_cons_of_mem j hi

theorem mem_spell_of_settled {done : List ι} {x : β} (h : Settled done value pieces x)
    (hdone : ∀ i ∈ done, i ∈ order) : x ∈ spell order value pieces := by
  rcases h with hlit | ⟨i, hi, hhole, hx⟩
  · exact List.mem_flatMap.mpr ⟨.lit x, hlit, List.mem_singleton_self x⟩
  · obtain ⟨left, own, right, rfl, -⟩ := exists_hole hhole
    refine List.mem_flatMap.mpr ⟨.hole i own, by simp, ?_⟩
    rw [Piece.spell, if_pos (hdone i hi)]
    exact hx

namespace Distinct

theorem nodup_spell (h : Distinct value pieces) (hnodup : (holes pieces).Nodup)
    (done : List ι) : (spell done value pieces).Nodup := by
  induction pieces with
  | nil => exact List.nodup_nil
  | cons piece pieces ih =>
      obtain ⟨htext, -, hapart⟩ := List.nodup_append.mp h.text
      cases piece with
      | lit y =>
          refine List.nodup_append.mpr ⟨htext, ih h.tail hnodup, fun x hx z hz => ?_⟩
          rcases mem_spell hz with hz | ⟨j, -, hz⟩
          · exact hapart x hx z hz
          · rintro rfl
            exact h.apart j x hz (List.mem_append_left _ hx)
      | hole i own =>
          rw [holes, List.nodup_cons] at hnodup
          rw [spell_cons, Piece.spell]
          split
          · refine List.nodup_append.mpr ⟨h.values i, ih h.tail hnodup.2, fun x hx z hz => ?_⟩
            rintro rfl
            rcases mem_spell hz with hz | ⟨j, hj, hz⟩
            · exact h.apart i x hx (List.mem_append_right _ hz)
            · exact h.disjoint i j (fun hij => hnodup.1 (hij ▸ hj)) x hx hz
          · refine List.nodup_append.mpr ⟨htext, ih h.tail hnodup.2, fun x hx z hz => ?_⟩
            rcases mem_spell hz with hz | ⟨j, -, hz⟩
            · exact hapart x hx z hz
            · rintro rfl
              exact h.apart j x hz (List.mem_append_left _ hx)

end Distinct

/-! ## What a replacement takes away -/

variable [DecidableEq α]

/-- A replacement outside the hole takes a settled character away for good. -/
theorem exists_lost {before after : List ι} {i : ι} (hreads : Reads V proj pieces)
    (hnodup : (holes pieces).Nodup) (horder : order.Nodup) (hsplit : order = before ++ i :: after)
    (hdistinct : Distinct value pieces)
    (hindex : index (V.pattern i) ((spell before value pieces).map proj) ≠
      holeIndex before value i pieces) :
    ∃ x ∈ spell order value pieces,
      x ∉ replaceEach V proj value (i :: after) (spell before value pieces) := by
  rw [hsplit] at horder
  have hi : i ∉ before :=
    fun hmem => (List.nodup_append.mp horder).2.2 i hmem i List.mem_cons_self rfl
  have hlater : ∀ j ∈ i :: after, j ∉ before :=
    fun j hj hmem => (List.nodup_append.mp horder).2.2 j hmem j hj rfl
  cases hfound : index (V.pattern i) ((spell before value pieces).map proj) with
  | none =>
      -- the hole itself would have been found
      exfalso
      by_cases hmem : i ∈ holes pieces
      · obtain ⟨left, own, right, rfl, hleft⟩ := exists_hole hmem
        refine index_eq_none_iff.mp hfound (spell before value left).length ?_ ?_
        · rw [List.length_map, spell_append, List.length_append]
          exact Nat.le_add_right _ _
        · rw [spell_append, spell_cons, Piece.spell, if_neg hi, ← List.map_drop, List.drop_left,
            List.map_append, hreads i own (by simp)]
          exact List.prefix_append _ _
      · exact hindex (hfound.trans (holeIndex_of_notMem hmem).symm)
  | some k =>
      obtain ⟨hk, hpre, -⟩ := index_eq_some_iff.mp hfound
      obtain ⟨A, B, hcut, hA⟩ := exists_cut hk hpre
      obtain ⟨head, B', hhead, hheadMap, hB'⟩ := List.map_eq_append_iff.mp hcut
      obtain ⟨A', W, rfl, hA', hW⟩ := List.map_eq_append_iff.mp hheadMap
      have hlenA : A'.length = k := by rw [← hA, ← hA', List.length_map]
      have hlenW : W.length = (V.pattern i).length := by rw [← hW, List.length_map]
      rcases own_or_settled hreads hhead hW with ⟨left, own, right, rfl, hleft⟩ | ⟨x, hx, hset⟩
      · exfalso
        have hnot : i ∉ holes left := by
          rw [holes_append, holes] at hnodup
          exact fun hmem => (List.nodup_append.mp hnodup).2.2 i hmem i List.mem_cons_self rfl
        rw [hfound, holeIndex_append hnot, ← hleft, hlenA] at hindex
        exact hindex rfl
      · refine ⟨x, mem_spell_of_settled hset fun j hj => ?_, fun hmem => ?_⟩
        · rw [hsplit]
          exact List.mem_append_left _ hj
        · have hreplaced : replaceBy proj (V.pattern i) (value i) (spell before value pieces) =
              A' ++ value i ++ B' := by
            rw [hhead, ← hlenA] at hfound
            rw [hhead]
            exact replaceBy_cut (value i) hfound hlenW
          have hnodup' := hdistinct.nodup_spell hnodup before
          rw [hhead] at hnodup'
          obtain ⟨hAW, -, hAWB⟩ := List.nodup_append.mp hnodup'
          have hlater' : x ∈ replaceEach V proj value after
              (replaceBy proj (V.pattern i) (value i) (spell before value pieces)) := hmem
          rcases mem_replaceEach hlater' with hmem | ⟨j, hj, hmem⟩
          · rw [hreplaced] at hmem
            rcases List.mem_append.mp hmem with hmem | hmem
            · rcases List.mem_append.mp hmem with hmem | hmem
              · exact (List.nodup_append.mp hAW).2.2 x hmem x hx rfl
              · exact hdistinct.notMem_value hset hi hmem
            · exact hAWB x (List.mem_append_right _ hx) x hmem rfl
          · exact hdistinct.notMem_value hset (hlater j (List.mem_cons_of_mem i hj)) hmem

/-- When all characters are distinct, replacements that make the expansion were not
disturbed. -/
theorem undisturbed_of_replaceEach_eq (hreads : Reads V proj pieces)
    (hnodup : (holes pieces).Nodup) (horder : order.Nodup) (hdistinct : Distinct value pieces)
    (heq : replaceEach V proj value order (text pieces) = spell order value pieces) :
    Undisturbed V proj value order pieces := by
  have hrest : ∀ after before, order = before ++ after →
      replaceEach V proj value after (spell before value pieces) = spell order value pieces →
      ∀ mid i rest, after = mid ++ i :: rest →
        index (V.pattern i) ((spell (before ++ mid) value pieces).map proj) =
          holeIndex (before ++ mid) value i pieces := by
    intro after
    induction after with
    | nil =>
        intro before _ _ mid i rest hnil
        exact absurd hnil.symm (by simp)
    | cons j after ih =>
        intro before hsplit hafter mid i rest hmid
        have hj : j ∉ before := by
          rw [hsplit] at horder
          exact fun hmem => (List.nodup_append.mp horder).2.2 j hmem j List.mem_cons_self rfl
        have hfirst : index (V.pattern j) ((spell before value pieces).map proj) =
            holeIndex before value j pieces := by
          by_contra hne
          obtain ⟨x, hx, hlost⟩ := exists_lost hreads hnodup horder hsplit hdistinct hne
          rw [hafter] at hlost
          exact hlost hx
        cases mid with
        | nil =>
            obtain ⟨rfl, -⟩ := List.cons.inj hmid
            rw [List.append_nil]
            exact hfirst
        | cons m mid =>
            obtain ⟨rfl, htail⟩ := List.cons.inj hmid
            have hstep : replaceEach V proj value after (spell (before ++ [j]) value pieces) =
                spell order value pieces := by
              rw [← hafter, ← replaceBy_spell hreads hnodup hj hfirst]
              rfl
            have hnext := ih (before ++ [j]) (by rw [hsplit, List.append_assoc]; rfl) hstep
              mid i rest htail
            rwa [List.append_assoc, List.singleton_append] at hnext
  intro before i after hsplit
  rw [← spell_nothing value] at heq
  exact hrest order [] rfl heq before i after hsplit

/-! ## Characters that carry their origin -/

/-- One replacement after another, on characters that carry their origin. -/
def traceReplace (V : Vocabulary ι α) (value : ι → List α) (order : List ι) (cs : List α) :
    List (α × Origin ι × Nat) :=
  replaceEach V Prod.fst (fun i => label (.value i) (value i)) order (label .template cs)

/-- The expansion, on characters that carry their origin. -/
def traceExpand (V : Vocabulary ι α) (value : ι → List α) (order : List ι) (cs : List α) :
    List (α × Origin ι × Nat) :=
  spell order (fun i => label (.value i) (value i)) (parse V order Prod.fst 0 (label .template cs))

section Trace

variable {V : Vocabulary ι α} {order : List ι} {value : ι → List α} {cs : List α}

/-- The replacements put every character where the expansion does exactly when none of
them is disturbed. -/
theorem traceReplace_eq_iff (honce : ∀ i, AtMostOnce (V.pattern i) cs) (horder : order.Nodup) :
    traceReplace V value order cs = traceExpand V value order cs ↔
      Undisturbed V id value order (parse V order id 0 cs) := by
  have hreads := reads_parse V order Prod.fst 0 (label (.template : Origin ι) cs)
  have htext := text_parse V order Prod.fst 0 (label (.template : Origin ι) cs)
  rw [List.drop_zero] at htext
  have hnodup := nodup_holes hreads fun i => by
    rw [htext, map_label]
    exact honce i
  have hplain : Undisturbed V id value order (parse V order id 0 cs) ↔
      Undisturbed V Prod.fst (fun i => label (.value i) (value i)) order
        (parse V order Prod.fst 0 (label .template cs)) := by
    have hmap := undisturbed_map_iff V Prod.fst order (fun i => label (.value i) (value i))
      (parse V order Prod.fst 0 (label .template cs))
    simp only [map_label, ← parse_map] at hmap
    exact hmap
  rw [hplain]
  constructor
  · intro heq
    have heq' : replaceEach V Prod.fst (fun i => label (.value i) (value i)) order
        (text (parse V order Prod.fst 0 (label .template cs))) = traceExpand V value order cs := by
      rw [htext]
      exact heq
    exact undisturbed_of_replaceEach_eq hreads hnodup horder
      (distinct_label V order value cs) heq'
  · intro hund
    have heq := replaceEach_eq_spell hreads hnodup horder hund
    rw [htext] at heq
    exact heq

/-- The same text then comes out. -/
theorem replaceEach_eq_expand
    (h : traceReplace V value order cs = traceExpand V value order cs) :
    replaceEach V id value order cs = expand V value order cs := by
  have hmap := congrArg (List.map Prod.fst) h
  rw [traceReplace, map_replaceEach, traceExpand, spell_map, ← parse_map] at hmap
  simp only [map_label] at hmap
  exact hmap

end Trace

end Templates
end VermouthGateway
