import VermouthGateway.Go.Replace
import Mathlib.Data.List.Nodup

/-!
# Templates

A template is a text with placeholders in it: names between two marks.  Expanding
a template puts a value in the place of every placeholder at once.  A program may
instead replace one placeholder after another, each where it occurs first; what
was put in by then is searched along with the rest.

Texts are lists over `β`, read through `proj : β → α`, so that a character may
carry where it came from without the search seeing it.

* `parse` cuts a text into holes and literals, from left to right.
* `spell` fills some of the holes; filling all of them is the expansion.
* `replaceEach` replaces one placeholder after another.
* `Undisturbed`: what each replacement finds first is a hole of the template.
* `replaceEach_eq_spell`: then the replacements make the expansion.
-/

namespace VermouthGateway
namespace Templates

open Go

/-- Names, and the mark that stands before and after them. -/
structure Vocabulary (ι α : Type) where
  mark : α
  name : ι → List α
  mark_notMem : ∀ i, mark ∉ name i
  name_ne_nil : ∀ i, name i ≠ []
  name_injective : Function.Injective name

/-- A placeholder as it is written. -/
def Vocabulary.pattern {ι α : Type} (V : Vocabulary ι α) (i : ι) : List α :=
  V.mark :: (V.name i ++ [V.mark])

/-- A placeholder with the text it stands for, or a character of its own. -/
inductive Piece (ι β : Type)
  | hole (i : ι) (own : List β)
  | lit (x : β)

section Pieces

variable {ι α β : Type}

namespace Vocabulary

variable (V : Vocabulary ι α)

theorem length_pattern (i : ι) : (V.pattern i).length = (V.name i).length + 2 := by
  simp [pattern]

theorem length_pattern_pos (i : ι) : 0 < (V.pattern i).length := by
  rw [V.length_pattern]
  omega

/-- What stands before the first mark is determined. -/
theorem before_mark_inj {m : α} {left left' right right' : List α} (hleft : m ∉ left)
    (hleft' : m ∉ left') (h : left ++ m :: right = left' ++ m :: right') : left = left' := by
  induction left generalizing left' with
  | nil =>
      cases left' with
      | nil => rfl
      | cons c left' =>
          obtain ⟨rfl, -⟩ := List.cons.inj h
          exact absurd List.mem_cons_self hleft'
  | cons c left ih =>
      cases left' with
      | nil =>
          obtain ⟨rfl, -⟩ := List.cons.inj h
          exact absurd List.mem_cons_self hleft
      | cons c' left' =>
          obtain ⟨rfl, htail⟩ := List.cons.inj h
          rw [ih (fun hm => hleft (List.mem_cons_of_mem c hm))
            (fun hm => hleft' (List.mem_cons_of_mem c hm)) htail]

/-- Two placeholders that begin at one place are the same. -/
theorem pattern_eq_of_prefix {i j : ι} {cs : List α} (hi : V.pattern i <+: cs)
    (hj : V.pattern j <+: cs) : i = j := by
  obtain ⟨rest, hrest⟩ := hi
  obtain ⟨rest', hrest'⟩ := hj
  have hboth := hrest.trans hrest'.symm
  simp only [pattern, List.cons_append, List.append_assoc, List.nil_append, List.cons.injEq,
    true_and] at hboth
  exact V.name_injective (before_mark_inj (V.mark_notMem i) (V.mark_notMem j) hboth)

end Vocabulary

def Piece.text : Piece ι β → List β
  | hole _ own => own
  | lit x => [x]

def Piece.map {γ : Type} (f : β → γ) : Piece ι β → Piece ι γ
  | hole i own => hole i (own.map f)
  | lit x => lit (f x)

def text (pieces : List (Piece ι β)) : List β := pieces.flatMap Piece.text

/-- The placeholders of a template, from left to right. -/
def holes : List (Piece ι β) → List ι
  | [] => []
  | .hole i _ :: pieces => i :: holes pieces
  | .lit _ :: pieces => holes pieces

theorem holes_append (left right : List (Piece ι β)) :
    holes (left ++ right) = holes left ++ holes right := by
  induction left with
  | nil => rfl
  | cons piece left ih =>
      cases piece with
      | hole i own => rw [List.cons_append, holes, holes, ih, List.cons_append]
      | lit x => rw [List.cons_append, holes, holes, ih]

/-- A pattern begins at one position at most. -/
def AtMostOnce (old cs : List α) : Prop :=
  ∀ j < cs.length, ∀ k < cs.length, old <+: cs.drop j → old <+: cs.drop k → j = k

theorem AtMostOnce.of_append {old left right : List α} (h : AtMostOnce old (left ++ right)) :
    AtMostOnce old right := by
  intro j hj k hk hpre hpre'
  have hshift : ∀ n, (left ++ right).drop (left.length + n) = right.drop n := fun n => by
    rw [List.drop_append, List.drop_eq_nil_of_le (Nat.le_add_right _ n), List.nil_append,
      Nat.add_sub_cancel_left]
  have hsame := h (left.length + j) (by rw [List.length_append]; omega) (left.length + k)
    (by rw [List.length_append]; omega) (by rwa [hshift]) (by rwa [hshift])
  exact Nat.add_left_cancel hsame

end Pieces

/-! ## Parsing -/

section Parse

variable {ι α β : Type} [DecidableEq α]

-- a second occurrence is only looked for behind a first one
instance (old cs : List α) : Decidable (AtMostOnce old cs) :=
  decidable_of_iff
    (∀ j < cs.length, old <+: cs.drop j → ∀ k < cs.length, old <+: cs.drop k → j = k)
    ⟨fun h j hj k hk hpre hpre' => h j hj hpre k hk hpre',
      fun h j hj hpre k hk hpre' => h j hj k hk hpre hpre'⟩

/-- Cut a text at the placeholders of `order`; the number counts the characters of the
last placeholder that are still to be passed. -/
def parse (V : Vocabulary ι α) (order : List ι) (proj : β → α) : Nat → List β → List (Piece ι β)
  | _, [] => []
  | skip + 1, _ :: cs => parse V order proj skip cs
  | 0, c :: cs =>
      match order.find? fun i => V.pattern i <+: (c :: cs).map proj with
      | some i => .hole i ((c :: cs).take (V.pattern i).length) ::
          parse V order proj ((V.pattern i).length - 1) cs
      | none => .lit c :: parse V order proj 0 cs

/-- The holes of a template are written as their placeholders. -/
def Reads (V : Vocabulary ι α) (proj : β → α) (pieces : List (Piece ι β)) : Prop :=
  ∀ i own, .hole i own ∈ pieces → own.map proj = V.pattern i

variable (V : Vocabulary ι α) (order : List ι) (proj : β → α)

/-- Nothing of a text is lost. -/
theorem text_parse (skip : Nat) (cs : List β) :
    text (parse V order proj skip cs) = cs.drop skip := by
  induction cs generalizing skip with
  | nil => simp [parse, text]
  | cons c cs ih =>
      cases skip with
      | succ skip => exact ih skip
      | zero =>
          rw [parse]
          split
          · next i _ =>
              obtain ⟨n, hn⟩ := Nat.exists_eq_succ_of_ne_zero
                (Nat.pos_iff_ne_zero.mp (V.length_pattern_pos i))
              show (c :: cs).take (V.pattern i).length ++ text (parse V order proj _ cs) = _
              rw [ih, hn, Nat.succ_sub_one, List.take_succ_cons, List.cons_append,
                List.take_append_drop, List.drop_zero]
          · show [c] ++ text (parse V order proj 0 cs) = _
            rw [ih, List.drop_zero, List.drop_zero, List.singleton_append]

theorem reads_parse (skip : Nat) (cs : List β) : Reads V proj (parse V order proj skip cs) := by
  induction cs generalizing skip with
  | nil => intro i own hmem; simp [parse] at hmem
  | cons c cs ih =>
      cases skip with
      | succ skip => exact ih skip
      | zero =>
          rw [parse]
          intro j own hmem
          split at hmem
          · next i hfind =>
              rcases List.mem_cons.mp hmem with heq | hmem
              · obtain ⟨rfl, rfl⟩ := Piece.hole.inj heq
                have hpre : V.pattern j <+: (c :: cs).map proj := by
                  simpa using List.find?_some hfind
                rw [List.map_take]
                exact (List.prefix_iff_eq_take.mp hpre).symm
              · exact ih _ j own hmem
          · exact ih 0 j own ((List.mem_cons.mp hmem).resolve_left (by simp))

end Parse

/-! ## Replacing -/

section Replace

variable {ι α β : Type} [DecidableEq α] {V : Vocabulary ι α} {proj : β → α} {value : ι → List β}
  {order : List ι}

/-- Replace the first occurrence, as the search reads it. -/
def replaceBy (proj : β → α) (old : List α) (new cs : List β) : List β :=
  match index old (cs.map proj) with
  | none => cs
  | some k => cs.take k ++ new ++ cs.drop (k + old.length)

/-- Replace one placeholder after another. -/
def replaceEach (V : Vocabulary ι α) (proj : β → α) (value : ι → List β) (order : List ι)
    (cs : List β) : List β :=
  order.foldl (fun cs i => replaceBy proj (V.pattern i) (value i) cs) cs

/-- Without a projection it is the replacement of the library. -/
theorem replaceBy_id (old new cs : List α) : replaceBy id old new cs = replaceFirst old new cs := by
  have hmap : cs.map id = cs := List.map_id cs
  cases hindex : index old cs with
  | none => simp only [replaceBy, replaceFirst, hmap, hindex]
  | some k => simp only [replaceBy, replaceFirst, hmap, hindex]

/-- A replacement, on a text that is cut where the search succeeds. -/
theorem replaceBy_cut {old : List α} {before window after : List β} (new : List β)
    (hindex : index old ((before ++ window ++ after).map proj) = some before.length)
    (hlen : window.length = old.length) :
    replaceBy proj old new (before ++ window ++ after) = before ++ new ++ after := by
  have htake : (before ++ window ++ after).take before.length = before := by
    rw [List.append_assoc, List.take_left]
  have hdrop : (before ++ window ++ after).drop (before.length + window.length) = after := by
    rw [← List.length_append, List.drop_left]
  rw [replaceBy, hindex]
  dsimp only
  rw [← hlen, htake, hdrop]

theorem map_replaceBy (old : List α) (new cs : List β) :
    (replaceBy proj old new cs).map proj = replaceBy id old (new.map proj) (cs.map proj) := by
  rw [replaceBy, replaceBy, List.map_id]
  split
  · rfl
  · rw [List.map_append, List.map_append, List.map_take, List.map_drop]

theorem map_replaceEach (cs : List β) :
    (replaceEach V proj value order cs).map proj =
      replaceEach V id (fun i => (value i).map proj) order (cs.map proj) := by
  induction order generalizing cs with
  | nil => rfl
  | cons i order ih =>
      show (replaceEach V proj value order _).map proj = replaceEach V id _ order _
      rw [ih, map_replaceBy]

theorem parse_map (skip : Nat) (cs : List β) :
    parse V order id skip (cs.map proj) = (parse V order proj skip cs).map (Piece.map proj) := by
  induction cs generalizing skip with
  | nil => simp [parse]
  | cons c cs ih =>
      cases skip with
      | succ skip => exact ih skip
      | zero =>
          rw [List.map_cons, parse, parse, List.map_id, ← List.map_cons]
          split
          · simp only [ih, List.map_cons, Piece.map, List.map_take]
          · simp only [ih, List.map_cons, Piece.map]

end Replace

/-! ## Spelling -/

variable {ι α β : Type} [DecidableEq ι]

/-- The text of a piece with the placeholders of `done` filled. -/
def Piece.spell (done : List ι) (value : ι → List β) : Piece ι β → List β
  | hole i own => if i ∈ done then value i else own
  | lit x => [x]

def Piece.isHole (i : ι) : Piece ι β → Bool
  | hole j _ => j == i
  | lit _ => false

def spell (done : List ι) (value : ι → List β) (pieces : List (Piece ι β)) : List β :=
  pieces.flatMap (Piece.spell done value)

/-- Where the hole of a placeholder begins once the placeholders of `done` are filled. -/
def holeIndex (done : List ι) (value : ι → List β) (i : ι) : List (Piece ι β) → Option Nat
  | [] => none
  | piece :: pieces =>
      if piece.isHole i then some 0
      else (holeIndex done value i pieces).map (· + (piece.spell done value).length)

@[simp] theorem spell_nil (done : List ι) (value : ι → List β) :
    spell done value ([] : List (Piece ι β)) = [] := rfl

theorem spell_cons (done : List ι) (value : ι → List β) (piece : Piece ι β)
    (pieces : List (Piece ι β)) :
    spell done value (piece :: pieces) = piece.spell done value ++ spell done value pieces := rfl

theorem spell_append (done : List ι) (value : ι → List β) (left right : List (Piece ι β)) :
    spell done value (left ++ right) = spell done value left ++ spell done value right :=
  List.flatMap_append

theorem spell_nothing (value : ι → List β) (pieces : List (Piece ι β)) :
    spell [] value pieces = text pieces := by
  have hpiece : (Piece.spell [] value : Piece ι β → List β) = Piece.text := by
    funext piece
    cases piece with
    | hole i own => simp [Piece.spell, Piece.text]
    | lit x => rfl
  rw [spell, text, hpiece]

/-- Filling a placeholder without a hole changes nothing. -/
theorem spell_concat_of_notMem {done : List ι} {value : ι → List β} {i : ι}
    {pieces : List (Piece ι β)} (hi : i ∉ holes pieces) :
    spell (done ++ [i]) value pieces = spell done value pieces := by
  induction pieces with
  | nil => rfl
  | cons piece pieces ih =>
      cases piece with
      | hole j own =>
          rw [holes, List.mem_cons, not_or] at hi
          rw [spell_cons, spell_cons, ih hi.2]
          have hmem : j ∈ done ++ [i] ↔ j ∈ done := by
            simp [Ne.symm hi.1]
          simp only [Piece.spell, hmem]
      | lit x =>
          rw [spell_cons, spell_cons, ih hi]
          rfl

theorem holeIndex_of_notMem {done : List ι} {value : ι → List β} {i : ι}
    {pieces : List (Piece ι β)} (hi : i ∉ holes pieces) :
    holeIndex done value i pieces = none := by
  induction pieces with
  | nil => rfl
  | cons piece pieces ih =>
      rw [holeIndex]
      cases piece with
      | hole j own =>
          rw [holes, List.mem_cons, not_or] at hi
          rw [if_neg (by simpa [Piece.isHole] using Ne.symm hi.1), ih hi.2]
          rfl
      | lit x =>
          rw [if_neg (by simp [Piece.isHole]), ih hi]
          rfl

theorem holeIndex_append {done : List ι} {value : ι → List β} {i : ι} {own : List β}
    {left right : List (Piece ι β)} (hi : i ∉ holes left) :
    holeIndex done value i (left ++ .hole i own :: right) =
      some (spell done value left).length := by
  induction left with
  | nil =>
      rw [List.nil_append, holeIndex, if_pos (by simp [Piece.isHole])]
      rfl
  | cons piece left ih =>
      rw [List.cons_append, holeIndex, spell_cons, List.length_append]
      cases piece with
      | hole j own' =>
          rw [holes, List.mem_cons, not_or] at hi
          rw [if_neg (by simpa [Piece.isHole] using Ne.symm hi.1), ih hi.2, Option.map_some,
            Nat.add_comm]
      | lit x =>
          rw [if_neg (by simp [Piece.isHole]), ih hi, Option.map_some, Nat.add_comm]

/-- A placeholder of the template stands in one of its pieces. -/
theorem exists_hole {i : ι} {pieces : List (Piece ι β)} (hi : i ∈ holes pieces) :
    ∃ left own right, pieces = left ++ .hole i own :: right ∧ i ∉ holes left := by
  induction pieces with
  | nil => cases hi
  | cons piece pieces ih =>
      cases piece with
      | hole j own =>
          by_cases hij : i = j
          · subst hij
            exact ⟨[], own, pieces, rfl, List.not_mem_nil⟩
          · obtain ⟨left, own', right, rfl, hleft⟩ := ih ((List.mem_cons.mp hi).resolve_left hij)
            exact ⟨.hole j own :: left, own', right, rfl,
              fun hmem => (List.mem_cons.mp hmem).elim hij hleft⟩
      | lit x =>
          obtain ⟨left, own', right, rfl, hleft⟩ := ih hi
          exact ⟨.lit x :: left, own', right, rfl, hleft⟩

variable {V : Vocabulary ι α} {proj : β → α} {value : ι → List β} {order : List ι}
  {pieces : List (Piece ι β)}

/-- A text with every placeholder once at most has every hole once at most. -/
theorem nodup_holes (hreads : Reads V proj pieces)
    (honce : ∀ i, AtMostOnce (V.pattern i) ((text pieces).map proj)) : (holes pieces).Nodup := by
  induction pieces with
  | nil => exact List.nodup_nil
  | cons piece pieces ih =>
      have htext : (text (piece :: pieces)).map proj =
          piece.text.map proj ++ (text pieces).map proj := List.map_append
      have hrest := ih (fun i own hmem => hreads i own (List.mem_cons_of_mem _ hmem))
        fun i => by
          have hi := honce i
          rw [htext] at hi
          exact hi.of_append
      cases piece with
      | lit x => exact hrest
      | hole i own =>
          refine List.nodup_cons.mpr ⟨fun hmem => ?_, hrest⟩
          -- a second hole would be a second occurrence
          obtain ⟨left, own', right, rfl, -⟩ := exists_hole hmem
          have hown := hreads i own List.mem_cons_self
          have hown' := hreads i own' (by simp)
          have hcut : (text (.hole i own :: (left ++ .hole i own' :: right))).map proj =
              (V.pattern i ++ (text left).map proj) ++ (V.pattern i ++ (text right).map proj) := by
            simp only [text, List.flatMap_cons, List.flatMap_append, Piece.text, List.map_append,
              hown, hown', List.append_assoc]
          have hi := honce i
          rw [hcut] at hi
          have hpos := V.length_pattern_pos i
          have hsame := hi 0 (by simp only [List.length_append]; omega)
            (V.pattern i ++ (text left).map proj).length (by simp only [List.length_append]; omega)
            (by rw [List.drop_zero, List.append_assoc]; exact List.prefix_append _ _)
            (by rw [List.drop_left]; exact List.prefix_append _ _)
          rw [List.length_append] at hsame
          omega

/-! ## Replacing in the holes -/

variable [DecidableEq α]

/-- At its turn each placeholder is found first in the hole of the template, or
nowhere when the template has none. -/
def Undisturbed (V : Vocabulary ι α) (proj : β → α) (value : ι → List β) (order : List ι)
    (pieces : List (Piece ι β)) : Prop :=
  ∀ before i after, order = before ++ i :: after →
    index (V.pattern i) ((spell before value pieces).map proj) = holeIndex before value i pieces

/-- One replacement that finds the hole, or nothing where there is none. -/
theorem replaceBy_spell {before : List ι} {i : ι} (hreads : Reads V proj pieces)
    (hnodup : (holes pieces).Nodup) (hi : i ∉ before)
    (hindex : index (V.pattern i) ((spell before value pieces).map proj) =
      holeIndex before value i pieces) :
    replaceBy proj (V.pattern i) (value i) (spell before value pieces) =
      spell (before ++ [i]) value pieces := by
  by_cases hmem : i ∈ holes pieces
  · obtain ⟨left, own, right, rfl, hleft⟩ := exists_hole hmem
    have hright : i ∉ holes right := by
      rw [holes_append, holes] at hnodup
      exact (List.nodup_cons.mp (List.nodup_append.mp hnodup).2.1).1
    have hown : own.length = (V.pattern i).length := by
      rw [← hreads i own (by simp), List.length_map]
    have hbefore : spell before value (left ++ .hole i own :: right) =
        spell before value left ++ own ++ spell before value right := by
      rw [spell_append, spell_cons, Piece.spell, if_neg hi, List.append_assoc]
    have hafter : spell (before ++ [i]) value (left ++ .hole i own :: right) =
        spell before value left ++ value i ++ spell before value right := by
      rw [spell_append, spell_cons, Piece.spell, if_pos (by simp),
        spell_concat_of_notMem hleft, spell_concat_of_notMem hright, List.append_assoc]
    rw [holeIndex_append hleft, hbefore] at hindex
    rw [hbefore, hafter]
    exact replaceBy_cut (value i) hindex hown
  · rw [replaceBy, hindex, holeIndex_of_notMem hmem, spell_concat_of_notMem hmem]

/-- Undisturbed replacements expand the template. -/
theorem replaceEach_eq_spell (hreads : Reads V proj pieces) (hnodup : (holes pieces).Nodup)
    (horder : order.Nodup) (hund : Undisturbed V proj value order pieces) :
    replaceEach V proj value order (text pieces) = spell order value pieces := by
  have hrest : ∀ after before, order = before ++ after →
      replaceEach V proj value after (spell before value pieces) = spell order value pieces := by
    intro after
    induction after with
    | nil =>
        intro before hsplit
        rw [hsplit, List.append_nil]
        rfl
    | cons i after ih =>
        intro before hsplit
        have hi : i ∉ before := by
          rw [hsplit] at horder
          exact fun hmem => (List.nodup_append.mp horder).2.2 i hmem i List.mem_cons_self rfl
        show replaceEach V proj value after (replaceBy proj _ _ _) = _
        rw [replaceBy_spell hreads hnodup hi (hund before i after hsplit)]
        exact ih (before ++ [i]) (by rw [hsplit, List.append_assoc, List.singleton_append])
  rw [← spell_nothing value]
  exact hrest order [] rfl

/-! ## Reading through the projection -/

theorem spell_map {γ : Type} (f : β → γ) (done : List ι) (value : ι → List β)
    (pieces : List (Piece ι β)) :
    (spell done value pieces).map f =
      spell done (fun i => (value i).map f) (pieces.map (Piece.map f)) := by
  induction pieces with
  | nil => rfl
  | cons piece pieces ih =>
      rw [spell_cons, List.map_append, ih, List.map_cons, spell_cons]
      cases piece with
      | hole i own => simp only [Piece.spell, Piece.map, apply_ite (List.map f)]
      | lit x => rfl

theorem holeIndex_map {γ : Type} (f : β → γ) (done : List ι) (value : ι → List β) (i : ι)
    (pieces : List (Piece ι β)) :
    holeIndex done (fun i => (value i).map f) i (pieces.map (Piece.map f)) =
      holeIndex done value i pieces := by
  induction pieces with
  | nil => rfl
  | cons piece pieces ih =>
      have hlen : ((piece.map f).spell done fun i => (value i).map f).length =
          (piece.spell done value).length := by
        cases piece with
        | hole j own => simp only [Piece.spell, Piece.map]; split <;> simp
        | lit x => rfl
      have hhole : (piece.map f).isHole i = piece.isHole i := by
        cases piece <;> rfl
      rw [List.map_cons, holeIndex, holeIndex, ih, hlen, hhole]

theorem undisturbed_map_iff (V : Vocabulary ι α) (proj : β → α) (order : List ι)
    (value : ι → List β) (pieces : List (Piece ι β)) :
    Undisturbed V id (fun i => (value i).map proj) order (pieces.map (Piece.map proj)) ↔
      Undisturbed V proj value order pieces := by
  simp only [Undisturbed, List.map_id, ← spell_map, holeIndex_map]

/-! ## Expansion -/

/-- All placeholders of a text filled at once. -/
def expand (V : Vocabulary ι α) (value : ι → List α) (order : List ι) (cs : List α) : List α :=
  spell order value (parse V order id 0 cs)

end Templates
end VermouthGateway
